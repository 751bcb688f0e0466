import ScopedStore.Proofs.Client.Unarmed
import ScopedStore.Proofs.Scope.Telling

/-!
# How a transaction with one lease ends

A transaction that has used one registry has one participant at most. Closing the scope that owns it tells
that participant the outcome, and nothing but its own rows and the session of its lease changes
(`System.Tells.close`, `System.Lent.tells`).
-/

namespace ScopedStore

namespace System

variable {sys sys' : System} {key : TxKey} {m : Member} {scope : Scope}

/-! ## Telling the participant -/

/-- The rows of a member of a transaction that has not been told anything. -/
structure Lent (sys : System) (key : TxKey) (m : Member) : Prop where
  client_lt : m.session.client < sys.clients.length
  lease_lt : m.lease < sys.leases.length
  lease : sys.lease m.lease = { tx := key, session := m.session }
  enlistment : sys.enlistment m.enlistment =
    { lease := m.lease, onCompletion := .detach m.registry key }

def told (sys : System) (key : TxKey) (m : Member) (c : Client) : System :=
  let r := sys.registry m.registry
  { sys with
    clients := sys.clients.set m.session.client c
    registries := sys.registries.set m.registry { r with slots := r.slots.erase key }
    leases := sys.leases.set m.lease
      { tx := key, session := m.session, completed := true, disposed := true }
    enlistments := sys.enlistments.set m.enlistment
      { lease := m.lease, onCompletion := .detach m.registry key, unregisterCalls := 1
        unregistered := true } }

theorem Lent.settle (h : sys.Lent key m)
    (act : Client → SessionId → Except StoreError Unit × Client) :
    let called := act (sys.client m.session.client) m.session.id
    let settled := (sys.unregister m.enlistment).settleLease m.lease act
    settled.1 = called.1.mapError .store ∧
      settled.2.disposeLease m.lease = sys.told key m (called.2.endSession m.session.id) := by
  intro called settled
  let session := m.session
  let sys₁ := sys.unregister m.enlistment
  let sys₂ := sys₁.setLease m.lease { tx := key, session := session, completed := true }
  let sys₃ := sys₂.setClient session.client called.2
  have hunregisters : sys₁ = (sys.setEnlistment m.enlistment
      { lease := m.lease, onCompletion := .detach m.registry key, unregisterCalls := 1
        unregistered := true }).detach m.registry key := by
    show sys.unregister m.enlistment = _
    unfold unregister
    rw [h.enlistment]
    rfl
  obtain ⟨hclients₁, hleases₁⟩ := sys.unregister_frame m.enlistment
  have hrow₁ : sys₁.lease m.lease = { tx := key, session := session } :=
    (lease_of_eq hleases₁ m.lease).trans h.lease
  have hlt₁ : m.lease < sys₁.leases.length := by
    rw [hleases₁]
    exact h.lease_lt
  have hsettles : settled = (called.1.mapError .store, sys₃) := by
    have hopen : (sys₁.lease m.lease).completed = false := by rw [hrow₁]
    have hsettled := settleLease_of_open hopen act
    rw [hrow₁] at hsettled
    refine hsettled.trans ?_
    rw [client_of_eq hclients₁]
  have hclient_lt : session.client < sys₂.clients.length := by
    show session.client < sys₁.clients.length
    rw [hclients₁]
    exact h.client_lt
  have hrow₃ : sys₃.lease m.lease = { tx := key, session := session, completed := true } :=
    lease_setLease_self hlt₁ _
  have hself₃ : sys₃.client session.client = called.2 := client_setClient_self hclient_lt _
  have hdisposes : sys₃.disposeLease m.lease = sys.told key m (called.2.endSession session.id) := by
    unfold disposeLease
    rw [hrow₃]
    dsimp only
    rw [if_neg Bool.false_ne_true]
    let done : Lease := { tx := key, session := session, completed := true, disposed := true }
    have hself : (sys₃.setLease m.lease done).client session.client = called.2 := hself₃
    rw [hself]
    simp only [told, sys₃, sys₂, hunregisters, System.setClient, System.setLease, System.detach,
      System.setRegistry, System.setEnlistment, List.set_set]
    rfl
  rw [hsettles]
  exact ⟨rfl, hdisposes⟩

theorem Lent.notifyEnlistment (h : sys.Lent key m) (commits : Bool) :
    let concluded := (sys.client m.session.client).conclude m.session.id commits
    sys.notifyEnlistment m.enlistment (if commits then .commit else .rollback) =
      (concluded.1.mapError .store, sys.told key m concluded.2) := by
  intro concluded
  cases commits with
  | true =>
    obtain ⟨houtcome, hdisposes⟩ := h.settle Client.commitTransaction
    unfold System.notifyEnlistment
    rw [h.enlistment]
    exact Prod.ext houtcome hdisposes
  | false =>
    obtain ⟨houtcome, hdisposes⟩ := h.settle Client.abortTransaction
    unfold System.notifyEnlistment
    rw [h.enlistment]
    exact Prod.ext houtcome hdisposes

/-! ## Closing the scope -/

def noted (sys : System) (key : TxKey) (row : Transaction) (journal : List (TxKey × Milestone)) :
    System :=
  { sys with transactions := sys.transactions.set key row, journal := journal }

theorem exists_noted_settle (sys : System) (key : TxKey) (row : Transaction)
    (journal : List (TxKey × Milestone)) (status : Status) :
    ∃ row' journal', (sys.noted key row journal).settle key status = sys.noted key row' journal' := by
  refine ⟨((sys.noted key row journal).transaction key).settle status,
    journal ++ [(key, .settled status)], ?_⟩
  unfold System.settle System.record setTransaction
  simp only [noted, List.set_set]

theorem rollbackReason?_eq_none_iff (acquire : AcquireLease) (doomed : Option String)
    (members : List Member) :
    (sys.rollbackReason? acquire key doomed (members.map Member.participant)).1 = none ↔
      (sys.transaction key).isExpired sys.clock = false ∧ doomed = none := by
  unfold rollbackReason?
  cases (sys.transaction key).isExpired sys.clock with
  | true => simp
  | false =>
    cases doomed with
    | some reason => simp
    | none => simp [(prepareAll_members acquire key members sys).1]

/-- Whether closing the scope is to commit its transaction. -/
def commitsOn (sys : System) (key : TxKey) (scope : Scope) : Bool :=
  scope.completed && !(sys.transaction key).isExpired sys.clock && (sys.transaction key).doomed.isNone

/-- What comes of the system when the participants of its transaction are told to commit, and when they are
told to roll back, whatever the row of the transaction and the journal have become before. -/
structure Tells (sys : System) (key : TxKey) (participants : List Participant) (failure : Option TxError)
    (committed rolledBack : System) : Prop where
  commit : ∀ acquire row journal, ∃ n journal',
    commitAll acquire key participants (sys.noted key row journal) =
      ((n, failure), committed.noted key row journal') ∧ (failure.isSome → n = 0)
  rollback : ∀ acquire row journal, ∃ outcome journal',
    rollbackAll acquire key participants (sys.noted key row journal) =
      (outcome, rolledBack.noted key row journal')

section Closing

variable {members : List Member} {failure : Option TxError} {committed rolledBack : System}

theorem Tells.driveCommit
    (h : sys.Tells key (members.map Member.participant) failure committed rolledBack)
    (acquire : AcquireLease) (doomed : Option String) {row : Transaction}
    (hkey : key < sys.transactions.length) (hdeadline : row.deadline = (sys.transaction key).deadline) :
    let commits := !(sys.transaction key).isExpired sys.clock && doomed.isNone
    ∃ outcome row' journal',
      (sys.noted key row sys.journal).driveCommit acquire key doomed
          (members.map Member.participant) =
        (outcome, (if commits then committed else rolledBack).noted key row' journal') ∧
      (commits = true → outcome = failure.elim (.ok ()) .error) ∧
      (commits = false → ∃ e, outcome = .error e) := by
  intro commits
  let sys₁ := sys.noted key row sys.journal
  have hself : sys₁.transaction key = row := transaction_setTransaction_self hkey row
  have hexpired : (sys₁.transaction key).isExpired sys₁.clock =
      (sys.transaction key).isExpired sys.clock := by
    rw [hself, Transaction.isExpired, hdeadline]
    rfl
  obtain ⟨journal, ms, hafter, -⟩ := rollbackReason?_members acquire key doomed members sys₁
  have hreason : (sys₁.rollbackReason? acquire key doomed (members.map Member.participant)).1 = none ↔
      (sys.transaction key).isExpired sys.clock = false ∧ doomed = none := by
    rw [← hexpired]
    exact rollbackReason?_eq_none_iff acquire doomed members
  unfold System.driveCommit
  generalize sys₁.rollbackReason? acquire key doomed (members.map Member.participant) = found at *
  obtain ⟨reason, sys₂⟩ := found
  obtain rfl : sys₂ = sys.noted key row journal := hafter
  cases reason with
  | some e =>
    have hcommits : commits = false := by
      cases hcase : commits with
      | false => rfl
      | true =>
        simp only [commits, Bool.and_eq_true, Bool.not_eq_true', Option.isNone_iff_eq_none] at hcase
        cases hreason.2 hcase
    obtain ⟨outcome, journal₃, hroll⟩ := h.rollback acquire row journal
    obtain ⟨row', journal', hsettle⟩ := exists_noted_settle rolledBack key row journal₃ .aborted
    dsimp only
    rw [hroll, hcommits]
    dsimp only
    rw [hsettle]
    exact ⟨_, row', journal', rfl, fun hcommits => absurd hcommits Bool.false_ne_true,
      fun _ => ⟨e, rfl⟩⟩
  | none =>
    have hcommits : commits = true := by
      simp only [commits, Bool.and_eq_true, Bool.not_eq_true', Option.isNone_iff_eq_none]
      exact hreason.1 rfl
    obtain ⟨n, journal₃, hcommit, hfirst⟩ := h.commit acquire row journal
    dsimp only
    rw [hcommit, hcommits]
    cases failure with
    | none =>
      obtain ⟨row', journal', hsettle⟩ := exists_noted_settle committed key row journal₃ .committed
      dsimp only
      rw [hsettle]
      exact ⟨_, row', journal', rfl, fun _ => rfl, fun hcommits => absurd hcommits.symm Bool.false_ne_true⟩
    | some e =>
      obtain ⟨row', journal', hsettle⟩ := exists_noted_settle committed key row journal₃ .aborted
      obtain rfl : n = 0 := hfirst rfl
      dsimp only
      rw [hsettle]
      exact ⟨_, row', journal', rfl, fun _ => rfl, fun hcommits => absurd hcommits.symm Bool.false_ne_true⟩

/-- Closing the scope that owns an open transaction tells the participants to commit where it was completed,
the transaction has not expired and it is not doomed, and else to roll back. -/
theorem Tells.close
    (h : sys.Tells key (members.map Member.participant) failure committed rolledBack)
    (hkey : key < sys.transactions.length) (hopen : (sys.transaction key).isOpen = true)
    (hparticipants : (sys.transaction key).participants = members.map Member.participant)
    (hscope : scope.context.transaction = some key) (howns : scope.owns = true) :
    ∃ outcome row journal,
      sys.close scope =
        (outcome, (if sys.commitsOn key scope then committed else rolledBack).noted key row journal) ∧
      (sys.commitsOn key scope = true → outcome = failure.elim (.ok ()) .error) ∧
      (sys.commitsOn key scope = false → scope.completed = true → ∃ e, outcome = .error e) := by
  let row := { sys.transaction key with completing := true, participants := [] }
  obtain ⟨close, -, hclose⟩ := exists_close_of_owner hscope howns sys
  have hbegin : sys.beginCompletion key =
      (.ok (members.map Member.participant), sys.noted key row sys.journal) := by
    unfold beginCompletion
    dsimp only
    rw [if_pos hopen, hparticipants]
    rfl
  have hdeadline : row.deadline = (sys.transaction key).deadline := rfl
  rw [hclose]
  unfold commitsOn
  cases scope.completed with
  | false =>
    obtain ⟨outcome, journal, hroll⟩ := h.rollback (acquireWith close) row sys.journal
    obtain ⟨row', journal', hsettle⟩ := exists_noted_settle rolledBack key row journal .aborted
    rw [if_neg Bool.false_ne_true]
    unfold rollbackTransaction System.completeWith System.driveRollback
    rw [hbegin]
    dsimp only
    rw [hroll]
    dsimp only
    rw [dismissAll_members, hsettle]
    exact ⟨outcome, row', journal', rfl, fun hcommits => absurd hcommits Bool.false_ne_true,
      fun _ hcompleted => absurd hcompleted Bool.false_ne_true⟩
  | true =>
    obtain ⟨outcome, row', journal', hdrive, hcommits, hrolls⟩ :=
      h.driveCommit (acquireWith close) (sys.transaction key).doomed hkey hdeadline
    rw [if_pos rfl]
    unfold commitTransaction System.completeWith
    rw [hbegin]
    dsimp only
    rw [hdrive]
    dsimp only
    rw [dismissAll_members]
    exact ⟨outcome, row', journal', rfl, hcommits, fun hreason _ => hrolls hreason⟩

end Closing

/-! ## One member, or none -/

theorem tells_nil (sys : System) (key : TxKey) : sys.Tells key [] none sys sys :=
  ⟨fun _ _ journal => ⟨0, journal, rfl, fun h => by cases h⟩, fun _ _ journal => ⟨_, journal, rfl⟩⟩

theorem Lent.noted (h : sys.Lent key m) (row : Transaction) (journal : List (TxKey × Milestone)) :
    (sys.noted key row journal).Lent key m :=
  ⟨h.client_lt, h.lease_lt, h.lease, h.enlistment⟩

theorem Lent.tells (h : sys.Lent key m) :
    let concluded := (sys.client m.session.client).conclude m.session.id
    sys.Tells key [m.participant]
      (match (concluded true).1 with
        | .ok () => none
        | .error e => some (.store e))
      (sys.told key m (concluded true).2) (sys.told key m (concluded false).2) := by
  intro concluded
  refine ⟨fun acquire row journal => ?_, fun acquire row journal => ?_⟩
  · have hasked : (sys.noted key row journal).ask acquire key m.participant .commit =
        ((concluded true).1.mapError .store, (sys.told key m (concluded true).2).noted key row
          (journal ++ [(key, .asked m.participant .commit ((concluded true).1.mapError .store))])) := by
      have hnotify := (h.noted row journal).notifyEnlistment true
      unfold ask notify Member.participant
      dsimp only
      rw [if_pos rfl] at hnotify
      rw [hnotify]
      rfl
    unfold commitAll
    rw [hasked]
    cases (concluded true).1 with
    | ok u => exact ⟨1, _, rfl, fun hnone => absurd hnone Bool.false_ne_true⟩
    | error e => exact ⟨0, _, rfl, fun _ => rfl⟩
  · have hasked : (sys.noted key row journal).ask acquire key m.participant .rollback =
        ((concluded false).1.mapError .store, (sys.told key m (concluded false).2).noted key row
          (journal ++ [(key, .asked m.participant .rollback ((concluded false).1.mapError .store))])) := by
      have hnotify := (h.noted row journal).notifyEnlistment false
      unfold ask notify Member.participant
      dsimp only
      rw [if_neg Bool.false_ne_true] at hnotify
      rw [hnotify]
      rfl
    unfold rollbackAll
    rw [hasked]
    cases (concluded false).1 <;> exact ⟨_, _, rfl⟩

end System

end ScopedStore
