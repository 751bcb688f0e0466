import ScopedStore.Proofs.Scope.Course
import ScopedStore.Proofs.Scope.System

/-!
# Operations and the course of transactions

The journal of a system tells what the participants of each transaction were asked for. Most operations
leave transactions alone (`System.KeepsTransactions`). Enlisting and dooming let a transaction grow, and
so every operation that may close a scope on the way lets every transaction take its course
(`System.Evolves`), if closing a scope does.
-/

namespace ScopedStore

namespace System

/-! ## The course of a transaction in a system -/

def milestones (sys : System) (key : TxKey) : List Milestone :=
  sys.journal.filterMap fun entry => if entry.1 = key then some entry.2 else none

/-- Nothing that transactions go by has changed. -/
structure KeepsTransactions (sys sys' : System) : Prop where
  transactions : sys'.transactions = sys.transactions
  journal : sys'.journal = sys.journal
  clock : sys'.clock = sys.clock
  seed : sys'.seed = sys.seed

/-- Every transaction that was there has taken its course. -/
structure Evolves (key : TxKey) (sys sys' : System) : Prop where
  length : sys.transactions.length ≤ sys'.transactions.length
  clock : sys.clock ≤ sys'.clock
  seed : sys'.seed = sys.seed
  course : key < sys.transactions.length → ∃ ms, sys'.milestones key = sys.milestones key ++ ms ∧
    Course (sys.txId key) sys.clock sys'.clock (sys.transaction key) ms (sys'.transaction key)

/-- However a scope is closed, the transaction takes its course. -/
def Orderly (key : TxKey) (close : CloseScope) : Prop :=
  ∀ (sys : System) (scope : Scope), sys.Evolves key (close sys scope).2

def OrderlyAcquire (key : TxKey) (acquire : AcquireLease) : Prop :=
  ∀ (sys : System) (registry : RegistryKey) (cx : Context), sys.Evolves key (acquire sys registry cx).2

variable {sys sys' sys'' : System} {key key' : TxKey} {close : CloseScope} {acquire : AcquireLease}

theorem milestones_record_self (sys : System) (key : TxKey) (m : Milestone) :
    (sys.record key m).milestones key = sys.milestones key ++ [m] := by
  unfold milestones record
  rw [List.filterMap_append]
  simp

theorem milestones_record_of_ne (h : key' ≠ key) (sys : System) (m : Milestone) :
    (sys.record key' m).milestones key = sys.milestones key := by
  unfold milestones record
  rw [List.filterMap_append]
  simp [h]

theorem KeepsTransactions.refl (sys : System) : sys.KeepsTransactions sys := ⟨rfl, rfl, rfl, rfl⟩

theorem KeepsTransactions.trans (h : sys.KeepsTransactions sys') (h' : sys'.KeepsTransactions sys'') :
    sys.KeepsTransactions sys'' :=
  ⟨h'.transactions.trans h.transactions, h'.journal.trans h.journal, h'.clock.trans h.clock,
    h'.seed.trans h.seed⟩

namespace Evolves

theorem of_row (hlength : sys.transactions.length ≤ sys'.transactions.length)
    (hclock : sys.clock ≤ sys'.clock) (hseed : sys'.seed = sys.seed)
    (hmilestones : sys'.milestones key = sys.milestones key)
    (hrow : key < sys.transactions.length → sys'.transaction key = sys.transaction key) :
    sys.Evolves key sys' := by
  refine ⟨hlength, hclock, hseed, fun hkey => ⟨[], by rw [hmilestones, List.append_nil], ?_⟩⟩
  rw [hrow hkey]
  exact .refl _ _ _ _

theorem of_keeps (h : sys.KeepsTransactions sys') : sys.Evolves key sys' := by
  refine of_row (Nat.le_of_eq (by rw [h.transactions])) (Nat.le_of_eq h.clock.symm) h.seed ?_ ?_
  · unfold milestones
    rw [h.journal]
  · intro _
    unfold System.transaction
    rw [h.transactions]

theorem refl (key : TxKey) (sys : System) : sys.Evolves key sys := of_keeps (.refl sys)

theorem trans (h : sys.Evolves key sys') (h' : sys'.Evolves key sys'') : sys.Evolves key sys'' := by
  refine ⟨Nat.le_trans h.length h'.length, Nat.le_trans h.clock h'.clock, h'.seed.trans h.seed,
    fun hkey => ?_⟩
  obtain ⟨ms, hms, hcourse⟩ := h.course hkey
  obtain ⟨ms', hms', hcourse'⟩ := h'.course (Nat.lt_of_lt_of_le hkey h.length)
  have hid : sys'.txId key = sys.txId key := by
    unfold txId
    rw [h.seed]
  rw [hid] at hcourse'
  refine ⟨ms ++ ms', by rw [hms', hms, List.append_assoc], ?_⟩
  exact hcourse.trans h.clock h'.clock hcourse'

theorem setTransaction_of_ne (h : key' ≠ key) (sys : System) (t : Transaction) :
    sys.Evolves key (sys.setTransaction key' t) :=
  of_row (Nat.le_of_eq (List.length_set ..).symm) (Nat.le_refl _) rfl rfl
    fun _ => transaction_setTransaction_of_ne h sys t

theorem record_of_ne (h : key' ≠ key) (sys : System) (m : Milestone) :
    sys.Evolves key (sys.record key' m) :=
  of_row (Nat.le_refl _) (Nat.le_refl _) rfl (milestones_record_of_ne h sys m) fun _ => rfl

theorem grown (later : List Participant) (reason : Option String)
    (hlater : (sys.transaction key).isOpen = true ∨ later = []) :
    sys.Evolves key (sys.setTransaction key ((sys.transaction key).grown later reason)) := by
  refine ⟨Nat.le_of_eq (List.length_set ..).symm, Nat.le_refl _, rfl, fun hkey => ⟨[], ?_, ?_⟩⟩
  · rw [List.append_nil]
    rfl
  · rw [transaction_setTransaction_self hkey]
    cases hopen : (sys.transaction key).isOpen with
    | true => exact .working later reason hopen
    | false =>
      have hnil : later = [] := hlater.resolve_left fun h => by
        rw [hopen] at h
        cases h
      rw [hnil]
      exact .finished reason hopen

end Evolves

/-! ## What leaves transactions alone -/

theorem keeps_onClient {α : Type} (sys : System) (client : ClientKey)
    (act : Client → Except StoreError α × Client) :
    sys.KeepsTransactions (sys.onClient client act).2 := by
  unfold onClient
  split <;> exact ⟨rfl, rfl, rfl, rfl⟩

theorem keeps_settleLease (sys : System) (lease : LeaseKey)
    (act : Client → SessionId → Except StoreError Unit × Client) :
    sys.KeepsTransactions (sys.settleLease lease act).2 := by
  unfold settleLease
  dsimp only
  split
  · exact .refl sys
  · have hset : sys.KeepsTransactions
        (sys.setLease lease { sys.lease lease with completed := true }) := ⟨rfl, rfl, rfl, rfl⟩
    exact hset.trans (keeps_onClient _ _ _)

theorem keeps_disposeLease (sys : System) (lease : LeaseKey) :
    sys.KeepsTransactions (sys.disposeLease lease) := by
  unfold disposeLease
  dsimp only
  split <;> exact ⟨rfl, rfl, rfl, rfl⟩

theorem keeps_unregister (sys : System) (e : EnlistmentKey) :
    sys.KeepsTransactions (sys.unregister e) := by
  unfold unregister
  dsimp only
  split
  · exact .refl sys
  · split <;> exact ⟨rfl, rfl, rfl, rfl⟩

theorem keeps_notifyEnlistment (sys : System) (e : EnlistmentKey) (phase : Phase) :
    sys.KeepsTransactions (sys.notifyEnlistment e phase).2 := by
  have hsettled (act : Client → SessionId → Except StoreError Unit × Client) :
      sys.KeepsTransactions
        (((sys.unregister e).settleLease (sys.enlistment e).lease act).2.disposeLease
          (sys.enlistment e).lease) :=
    ((keeps_unregister sys e).trans (keeps_settleLease _ _ act)).trans (keeps_disposeLease _ _)
  cases phase with
  | prepare => exact .refl sys
  | commit => exact hsettled Client.commitTransaction
  | rollback | inDoubt => exact hsettled Client.abortTransaction

theorem keeps_openSlot (sys : System) (registry : RegistryKey) (tx : TxKey) :
    sys.KeepsTransactions (sys.openSlot registry tx).2 := by
  unfold openSlot
  dsimp only
  split <;> exact ⟨rfl, rfl, rfl, rfl⟩

theorem keeps_fillSlot (sys : System) (registry : RegistryKey) (tx : TxKey) (slot : Slot)
    (lease : LeaseKey) : sys.KeepsTransactions (sys.fillSlot registry tx slot lease) := by
  unfold fillSlot
  dsimp only
  split <;> exact ⟨rfl, rfl, rfl, rfl⟩

theorem keeps_releaseSlot (sys : System) (registry : RegistryKey) (tx : TxKey) (slot : Slot) :
    sys.KeepsTransactions (sys.releaseSlot registry tx slot) := by
  unfold releaseSlot
  dsimp only
  split <;> exact ⟨rfl, rfl, rfl, rfl⟩

theorem keeps_holdFor (sys : System) (p : Participant) : sys.KeepsTransactions (sys.holdFor p) := by
  unfold holdFor
  cases p.registryKey? <;> exact ⟨rfl, rfl, rfl, rfl⟩

theorem keeps_request (sys : System) (client : ClientKey) (session : Option SessionRef)
    (r : Request) : sys.KeepsTransactions (sys.request client session r).2 :=
  keeps_onClient _ _ _

/-! ## What lets transactions take their course -/

theorem evolves_enlist (key : TxKey) (sys : System) (cx : Context) (p : Participant) :
    sys.Evolves key (sys.enlist cx p).2 := by
  unfold enlist
  cases cx.transaction with
  | none => exact .refl key sys
  | some key' =>
    dsimp only
    cases hcheck : (sys.transaction key').checkAccepting (sys.txId key') sys.clock with
    | error e => exact .refl key sys
    | ok u =>
      dsimp only
      have hheld : sys.Evolves key (sys.holdFor p) := .of_keeps (keeps_holdFor sys p)
      refine hheld.trans ?_
      by_cases hkey : key' = key
      · rw [hkey] at hcheck ⊢
        have hrow : (sys.holdFor p).transaction key = sys.transaction key := by
          unfold System.transaction
          rw [(keeps_holdFor sys p).transactions]
        have hopen : (sys.transaction key).isOpen = true := by
          unfold Transaction.checkAccepting at hcheck
          cases hopen : (sys.transaction key).isOpen with
          | true => rfl
          | false =>
            rw [hopen] at hcheck
            cases hcheck
        have hgrown : { sys.transaction key with
            participants := (sys.transaction key).participants ++ [p] } =
              ((sys.holdFor p).transaction key).grown [p] none := by
          rw [hrow, Transaction.grown, Option.or_none]
        rw [hgrown]
        exact .grown [p] none (.inl (by rw [hrow, hopen]))
      · exact .setTransaction_of_ne hkey _ _

theorem evolves_doom (key : TxKey) (sys : System) (key' : TxKey) (reason : String) :
    sys.Evolves key (sys.doom key' reason) := by
  unfold doom
  by_cases hkey : key' = key
  · rw [hkey]
    have hgrown : (sys.transaction key).doom reason =
        (sys.transaction key).grown [] (some reason) := by
      rw [Transaction.doom, Transaction.grown, List.append_nil]
    rw [hgrown]
    exact .grown [] _ (.inr rfl)
  · exact .setTransaction_of_ne hkey _ _

theorem Orderly.closeHeldScope (h : Orderly key close) (sys : System) (registry : RegistryKey) :
    sys.Evolves key (sys.closeHeldScope close registry) := by
  unfold System.closeHeldScope
  dsimp only
  split
  · exact .refl key sys
  · rename_i scope _
    have hbefore : sys.Evolves key
        (sys.setRegistry registry { sys.registry registry with closing := none }) :=
      .of_keeps ⟨rfl, rfl, rfl, rfl⟩
    exact (hbefore.trans (h _ scope)).trans (.of_keeps ⟨rfl, rfl, rfl, rfl⟩)

theorem Orderly.letGoWith (h : Orderly key close) (sys : System) (registry : RegistryKey) :
    sys.Evolves key (sys.letGoWith close registry) := by
  have hset (r : Registry) : sys.Evolves key (sys.setRegistry registry r) :=
    .of_keeps ⟨rfl, rfl, rfl, rfl⟩
  unfold System.letGoWith
  dsimp only
  split
  · exact (hset _).trans (h _ _)
  · exact hset _

theorem Orderly.startRegistrySession (h : Orderly key close) (sys : System)
    (registry : RegistryKey) (options : SessionOptions) :
    sys.Evolves key (sys.startRegistrySession close registry options).2 := by
  have hheld := h.closeHeldScope sys registry
  unfold System.startRegistrySession
  dsimp only
  split
  · rename_i id after hstart
    have hkeeps := keeps_onClient (sys.closeHeldScope close registry)
      ((sys.closeHeldScope close registry).registry registry).client fun c => c.startSession options
    rw [hstart] at hkeeps
    exact hheld.trans (.of_keeps hkeeps)
  · rename_i e after hstart
    have hkeeps := keeps_onClient (sys.closeHeldScope close registry)
      ((sys.closeHeldScope close registry).registry registry).client fun c => c.startSession options
    rw [hstart] at hkeeps
    exact hheld.trans (.of_keeps hkeeps)

theorem Orderly.createLease (h : Orderly key close) (sys : System) (registry : RegistryKey)
    (cx : Context) (tx : TxKey) : sys.Evolves key (sys.createLease close registry cx tx).2 := by
  have hstart := h.startRegistrySession sys registry cx.config.session
  unfold System.createLease
  split
  · exact .refl key sys
  · split
    · rename_i e sys₁ heq
      rw [heq] at hstart
      exact hstart
    · rename_i session sys₁ heq
      rw [heq] at hstart
      dsimp only
      have hopened := keeps_onClient sys₁ session.client fun c =>
        c.startTransaction session.id (sys₁.transaction tx).options
      split
      · rename_i e sys₂ heq
        rw [heq] at hopened
        exact hstart.trans (.of_keeps (hopened.trans ⟨rfl, rfl, rfl, rfl⟩))
      · rename_i sys₂ heq
        rw [heq] at hopened
        let sys₃ := (sys₂.addLease { tx := tx, session := session }).2
        let sys₄ := (sys₃.addEnlistment sys₂.leases.length (.detach registry tx)).2
        have hlease : sys₂.addLease { tx := tx, session := session } = (sys₂.leases.length, sys₃) := rfl
        have henlistment : sys₃.addEnlistment sys₂.leases.length (.detach registry tx) =
            (sys₃.enlistments.length, sys₄) := rfl
        have hadded : sys₂.KeepsTransactions sys₄ := ⟨rfl, rfl, rfl, rfl⟩
        have hready := hstart.trans (.of_keeps (hopened.trans hadded))
        have henlist := evolves_enlist key sys₄ cx (.enlisted sys₃.enlistments.length)
        rw [hlease]
        dsimp only
        rw [henlistment]
        dsimp only
        split
        · rename_i sys₅ heq
          rw [heq] at henlist
          exact hready.trans henlist
        · rename_i e sys₅ heq
          rw [heq] at henlist
          have haborted := keeps_settleLease sys₅ sys₂.leases.length Client.abortTransaction
          exact (hready.trans henlist).trans
            (.of_keeps (haborted.trans (keeps_disposeLease _ _)))

theorem Orderly.acquireWith (h : Orderly key close) : OrderlyAcquire key (acquireWith close) := by
  intro sys registry cx
  unfold System.acquireWith
  cases cx.transaction with
  | none => exact .refl key sys
  | some tx =>
    dsimp only
    have hslot : sys.Evolves key (sys.openSlot registry tx).2 := .of_keeps (keeps_openSlot _ _ _)
    have hcreate := h.createLease (sys.openSlot registry tx).2 registry cx tx
    split
    · exact hslot
    · split
      · rename_i lease sys₁ heq
        rw [heq] at hcreate
        exact (hslot.trans hcreate).trans (.of_keeps (keeps_fillSlot _ _ _ _ _))
      · rename_i e sys₁ heq
        rw [heq] at hcreate
        exact (hslot.trans hcreate).trans (.of_keeps (keeps_releaseSlot _ _ _ _))

theorem OrderlyAcquire.observe (h : OrderlyAcquire key acquire) (sys : System) (p : Probe) :
    sys.Evolves key (sys.observe acquire p) := by
  have henlist := evolves_enlist key sys p.context .idle
  unfold System.observe
  dsimp only
  split
  · exact henlist.trans (.of_keeps ⟨rfl, rfl, rfl, rfl⟩)
  · rename_i registry _
    have hacquire := h (sys.enlist p.context .idle).2 registry p.context
    split
    · rename_i lease sys₁ heq
      rw [heq] at hacquire
      exact (henlist.trans hacquire).trans (.of_keeps ⟨rfl, rfl, rfl, rfl⟩)
    · rename_i e sys₁ heq
      rw [heq] at hacquire
      exact (henlist.trans hacquire).trans (.of_keeps ⟨rfl, rfl, rfl, rfl⟩)

theorem OrderlyAcquire.notify (h : OrderlyAcquire key acquire) (sys : System) (p : Participant)
    (phase : Phase) : sys.Evolves key (sys.notify acquire p phase).2 := by
  cases p with
  | enlisted e => exact .of_keeps (keeps_notifyEnlistment sys e phase)
  | idle => exact .refl key sys
  | probe p =>
    have hreport : sys.Evolves key (sys.report (.notified p.name phase)) :=
      .of_keeps ⟨rfl, rfl, rfl, rfl⟩
    have hcalled : sys.Evolves key (if phase ∈ p.calling then
        (sys.report (.notified p.name phase)).observe acquire p
        else sys.report (.notified p.name phase)) := by
      split
      · exact hreport.trans (h.observe _ p)
      · exact hreport
    unfold System.notify
    dsimp only
    split
    · exact hcalled
    · exact hcalled

end System

end ScopedStore
