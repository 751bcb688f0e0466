import ScopedStore.Proofs.Scope.Leasing

/-!
# Leases of transactions that have ended

The lease in a slot has an enlistment that takes part in the slot's transaction. When the transaction
completes, every participant is told the outcome, and only then is the lease settled; what participants do
when they look around does not come in between (`System.Attended`). So a lease that is still registered for a
transaction that has ended is settled, and one that is settled before belongs to an enlistment that no
registry made.
-/

namespace ScopedStore

def Probe.Asks (p : Probe) (registry : RegistryKey) (tx : TxKey) : Prop :=
  p.registry = some registry ∧ p.context.transaction = some tx

namespace System

/-! ## The invariant -/

/-- The lease has an enlistment that no registry made. -/
def Shared (sys : System) (l : LeaseKey) : Prop :=
  ∃ e < sys.enlistments.length,
    (sys.enlistment e).lease = l ∧ (sys.enlistment e).onCompletion = .count

/-- The lease is settled, or one of its enlistments takes part in the transaction or is about to be told an
outcome. -/
def Due (sys : System) (telling : List Participant) (tx : TxKey) (l : LeaseKey) : Prop :=
  (sys.lease l).completed = true ∨ ∃ e, (sys.enlistment e).lease = l ∧
    (.enlisted e ∈ (sys.transaction tx).participants ∨ .enlisted e ∈ telling)

/-- Registered leases are attended to, where some participants are about to be told an outcome and the
participants that look around ask for no other leases than those of `calls`. The enlistments that registries
make take part in no transaction but that of their lease. -/
structure Attended (calls : RegistryKey → TxKey → Prop) (telling : List Participant) (sys : System) :
    Prop where
  enlistment : ∀ e < sys.enlistments.length, (sys.enlistment e).lease < sys.leases.length ∧
    ∀ registry tx, (sys.enlistment e).onCompletion = .detach registry tx →
      (sys.lease (sys.enlistment e).lease).tx = tx
  participant : ∀ tx e, .enlisted e ∈ (sys.transaction tx).participants → e < sys.enlistments.length ∧
    ((sys.enlistment e).onCompletion = .count ∨ (sys.lease (sys.enlistment e).lease).tx = tx)
  told : ∀ e, .enlisted e ∈ telling → e < sys.enlistments.length ∧
    ((sys.enlistment e).onCompletion = .count ∨
      (sys.transaction (sys.lease (sys.enlistment e).lease).tx).isOpen = false)
  probe : ∀ p, .probe p ∈ telling ∨ (∃ tx, .probe p ∈ (sys.transaction tx).participants) →
    ∀ registry tx, p.Asks registry tx → calls registry tx
  closed : ∀ tx, (sys.transaction tx).isOpen = false → (sys.transaction tx).participants = []
  slot : ∀ registry tx l, sys.lookup registry tx = some l →
    l < sys.leases.length ∧ (sys.lease l).tx = tx ∧ sys.Due telling tx l ∧
    ((sys.transaction tx).isOpen = true → (sys.lease l).completed = true → sys.Shared l)

/-- Transactions only close, and only the leases of `calls` get a slot or find a lease in an empty one. -/
structure Advances (calls : RegistryKey → TxKey → Prop) (sys sys' : System) : Prop where
  transactions : sys'.transactions.length = sys.transactions.length
  leases : sys.leases.length ≤ sys'.leases.length
  isOpen : ∀ tx, (sys'.transaction tx).isOpen = true → (sys.transaction tx).isOpen = true
  completing : ∀ tx, (sys'.transaction tx).completing = true →
    (sys.transaction tx).completing = true
  kept : ∀ registry tx slot, (sys.registry registry).slots.find? tx = some slot →
    (sys'.transaction tx).isOpen = true → (sys'.registry registry).slots.find? tx = some slot ∨
      slot.lease = none ∧ calls registry tx
  slot : ∀ registry tx slot, (sys'.registry registry).slots.find? tx = some slot →
    (sys.registry registry).slots.find? tx = some slot ∨ slot.lease.isSome ∧ calls registry tx

def Attends (calls : RegistryKey → TxKey → Prop) (telling : List Participant) (sys sys' : System) :
    Prop :=
  sys.Attended calls telling → sys'.Attended calls telling ∧ sys.Advances calls sys'

def Attentive (calls : RegistryKey → TxKey → Prop) (close : CloseScope) : Prop :=
  ∀ (telling : List Participant) (sys : System) (scope : Scope),
    sys.Attends calls telling (close sys scope).2

variable {calls : RegistryKey → TxKey → Prop} {telling : List Participant} {close : CloseScope}
  {sys sys' sys'' : System} {registry : RegistryKey} {tx : TxKey} {l : LeaseKey} {cx : Context}

namespace Advances

theorem refl (calls : RegistryKey → TxKey → Prop) (sys : System) : sys.Advances calls sys :=
  ⟨rfl, Nat.le_refl _, fun _ h => h, fun _ h => h, fun _ _ _ h _ => .inl h, fun _ _ _ h => .inl h⟩

theorem trans (h : sys.Advances calls sys') (h' : sys'.Advances calls sys'') :
    sys.Advances calls sys'' where
  transactions := h'.transactions.trans h.transactions
  leases := Nat.le_trans h.leases h'.leases
  isOpen tx hopen := h.isOpen tx (h'.isOpen tx hopen)
  completing tx hcompleting := h.completing tx (h'.completing tx hcompleting)
  kept registry tx slot hslot hopen := by
    rcases h.kept registry tx slot hslot (h'.isOpen tx hopen) with hslot' | hcalled
    · exact h'.kept registry tx slot hslot' hopen
    · exact .inr hcalled
  slot registry tx slot hslot := by
    rcases h'.slot registry tx slot hslot with hslot' | hcalled
    · exact h.slot registry tx slot hslot'
    · exact .inr hcalled

end Advances

namespace Attends

theorem refl (calls : RegistryKey → TxKey → Prop) (telling : List Participant) (sys : System) :
    sys.Attends calls telling sys :=
  fun h => ⟨h, .refl calls sys⟩

theorem trans (h : sys.Attends calls telling sys') (h' : sys'.Attends calls telling sys'') :
    sys.Attends calls telling sys'' := fun hsys =>
  ⟨(h' (h hsys).1).1, (h hsys).2.trans (h' (h hsys).1).2⟩

end Attends

/-! ## Steps that leave rows as they are -/

/-- Leases, enlistments and transactions are the same, but for leases that were settled or disposed of and
enlistments that have unregistered. -/
structure SameRows (sys sys' : System) : Prop where
  leases : sys'.leases.length = sys.leases.length
  lease : ∀ l, (sys'.lease l).tx = (sys.lease l).tx ∧
    ((sys.lease l).completed = true → (sys'.lease l).completed = true)
  enlistments : sys'.enlistments.length = sys.enlistments.length
  enlistment : ∀ e, (sys'.enlistment e).lease = (sys.enlistment e).lease ∧
    (sys'.enlistment e).onCompletion = (sys.enlistment e).onCompletion
  isOpen : ∀ tx, (sys'.transaction tx).isOpen = (sys.transaction tx).isOpen
  participants : ∀ tx, (sys'.transaction tx).participants = (sys.transaction tx).participants

namespace SameRows

theorem of_eq (hleases : sys'.leases = sys.leases) (henlistments : sys'.enlistments = sys.enlistments)
    (htransactions : sys'.transactions = sys.transactions) : sys.SameRows sys' where
  leases := by rw [hleases]
  lease l := by
    rw [lease_of_eq hleases]
    exact ⟨rfl, id⟩
  enlistments := by rw [henlistments]
  enlistment e := by
    rw [enlistment_of_eq henlistments]
    exact ⟨rfl, rfl⟩
  isOpen tx := by rw [transaction_of_eq htransactions]
  participants tx := by rw [transaction_of_eq htransactions]

theorem shared (h : sys.SameRows sys') (hl : sys.Shared l) : sys'.Shared l := by
  obtain ⟨e, he, hsame, hcount⟩ := hl
  exact ⟨e, by rwa [h.enlistments], by rw [(h.enlistment e).1, hsame], by rw [(h.enlistment e).2, hcount]⟩

theorem attended (h : sys.SameRows sys')
    (hlookup : ∀ registry tx l, sys'.lookup registry tx = some l → sys.lookup registry tx = some l)
    (hcompleted : ∀ registry tx l, sys.lookup registry tx = some l →
      (sys.transaction tx).isOpen = true → (sys'.lease l).completed = true →
        (sys.lease l).completed = true ∨ sys.Shared l)
    (hsys : sys.Attended calls telling) : sys'.Attended calls telling where
  enlistment e he := by
    rw [h.enlistments] at he
    rw [(h.enlistment e).1, (h.enlistment e).2, (h.lease _).1, h.leases]
    exact hsys.enlistment e he
  participant tx e he := by
    rw [h.participants] at he
    rw [h.enlistments, (h.enlistment e).1, (h.enlistment e).2, (h.lease _).1]
    exact hsys.participant tx e he
  told e he := by
    rw [h.enlistments, (h.enlistment e).1, (h.enlistment e).2, (h.lease _).1, h.isOpen]
    exact hsys.told e he
  probe p hp := by
    simp only [h.participants] at hp
    exact hsys.probe p hp
  closed tx hclosed := by
    rw [h.isOpen] at hclosed
    rw [h.participants, hsys.closed tx hclosed]
  slot registry tx l hl := by
    have hbefore := hlookup registry tx l hl
    obtain ⟨hlt, htx, hdue, hshared⟩ := hsys.slot registry tx l hbefore
    refine ⟨by rwa [h.leases], by rw [(h.lease l).1, htx], ?_, fun hopen hsettled => ?_⟩
    · refine hdue.imp (h.lease l).2 fun ⟨e, hsame, he⟩ => ⟨e, by rw [(h.enlistment e).1, hsame], ?_⟩
      rwa [h.participants]
    · rw [h.isOpen] at hopen
      rcases hcompleted registry tx l hbefore hopen hsettled with hbefore | hl
      · exact h.shared (hshared hopen hbefore)
      · exact h.shared hl

theorem advances (h : sys.SameRows sys')
    (htransactions : sys'.transactions.length = sys.transactions.length)
    (hcompleting : ∀ tx, (sys'.transaction tx).completing = true →
      (sys.transaction tx).completing = true)
    (hslots : ∀ registry, (sys'.registry registry).slots = (sys.registry registry).slots) :
    sys.Advances calls sys' where
  transactions := htransactions
  leases := Nat.le_of_eq h.leases.symm
  isOpen tx hopen := by rwa [← h.isOpen]
  completing := hcompleting
  kept registry tx slot hslot _ := .inl (by rwa [hslots])
  slot registry tx slot hslot := .inl (by rwa [← hslots])

end SameRows

theorem lookup_of_slots (h : ∀ registry, (sys'.registry registry).slots = (sys.registry registry).slots)
    (registry : RegistryKey) (tx : TxKey) : sys'.lookup registry tx = sys.lookup registry tx := by
  unfold lookup
  rw [h]

theorem attends_of_sameRows (h : sys.SameRows sys') (hlease : ∀ l, sys'.lease l = sys.lease l)
    (htransactions : sys'.transactions.length = sys.transactions.length)
    (hcompleting : ∀ tx, (sys'.transaction tx).completing = true →
      (sys.transaction tx).completing = true)
    (hslots : ∀ registry, (sys'.registry registry).slots = (sys.registry registry).slots) :
    sys.Attends calls telling sys' := by
  refine fun hsys => ⟨h.attended (fun registry tx l hl => ?_) (fun registry tx l _ _ hsettled => ?_) hsys,
    h.advances htransactions hcompleting hslots⟩
  · rwa [lookup_of_slots hslots] at hl
  · rw [hlease] at hsettled
    exact .inl hsettled

theorem attends_of_eq (hleases : sys'.leases = sys.leases)
    (henlistments : sys'.enlistments = sys.enlistments)
    (htransactions : sys'.transactions = sys.transactions)
    (hslots : ∀ registry, (sys'.registry registry).slots = (sys.registry registry).slots) :
    sys.Attends calls telling sys' :=
  attends_of_sameRows (.of_eq hleases henlistments htransactions) (lease_of_eq hleases)
    (by rw [htransactions]) (fun tx => by rw [transaction_of_eq htransactions]; exact id) hslots

theorem attends_setRegistry {r : Registry} (h : r.slots = (sys.registry registry).slots) :
    sys.Attends calls telling (sys.setRegistry registry r) :=
  attends_of_eq rfl rfl rfl (slots_setRegistry_of_eq h)

theorem attends_onClient {α : Type} (sys : System) (client : ClientKey)
    (act : Client → Except StoreError α × Client) :
    sys.Attends calls telling (sys.onClient client act).2 := by
  unfold onClient
  split <;> exact attends_of_eq rfl rfl rfl fun _ => rfl

/-! ## Rows that are added -/

theorem attends_addLease (sys : System) (row : Lease) :
    sys.Attends calls telling (sys.addLease row).2 := by
  intro hsys
  have hold {l : LeaseKey} (hl : l < sys.leases.length) : (sys.addLease row).2.lease l = sys.lease l :=
    getD_append_of_lt hl _ default
  have hlength : (sys.addLease row).2.leases.length = sys.leases.length + 1 := List.length_append ..
  have hin {e : EnlistmentKey} (he : e < sys.enlistments.length) :
      (sys.addLease row).2.lease (sys.enlistment e).lease = sys.lease (sys.enlistment e).lease :=
    hold (hsys.enlistment e he).1
  refine ⟨⟨fun e he => ?_, fun tx e he => ?_, fun e he => ?_, hsys.probe, hsys.closed,
    fun registry tx l hl => ?_⟩, ⟨rfl, by omega, fun _ h => h, fun _ h => h, fun _ _ _ h _ => .inl h,
    fun _ _ _ h => .inl h⟩⟩
  · obtain ⟨hlt, htx⟩ := hsys.enlistment e he
    refine ⟨by rw [hlength]; exact Nat.lt_succ_of_lt hlt, ?_⟩
    show ∀ registry tx, (sys.enlistment e).onCompletion = _ →
      ((sys.addLease row).2.lease (sys.enlistment e).lease).tx = tx
    rwa [hin he]
  · obtain ⟨hlt, htx⟩ := hsys.participant tx e he
    refine ⟨hlt, htx.imp_right fun htx => ?_⟩
    show ((sys.addLease row).2.lease (sys.enlistment e).lease).tx = tx
    rwa [hin hlt]
  · obtain ⟨hlt, hclosed⟩ := hsys.told e he
    refine ⟨hlt, hclosed.imp_right fun hclosed => ?_⟩
    show (sys.transaction ((sys.addLease row).2.lease (sys.enlistment e).lease).tx).isOpen = false
    rwa [hin hlt]
  · obtain ⟨hlt, htx, hdue, hshared⟩ := hsys.slot registry tx l hl
    unfold Due
    rw [hold hlt, hlength]
    exact ⟨Nat.lt_succ_of_lt hlt, htx, hdue, hshared⟩

theorem attends_addEnlistment (hl : l < sys.leases.length) {onCompletion : OnCompletion}
    (htx : ∀ registry tx, onCompletion = .detach registry tx → (sys.lease l).tx = tx) :
    sys.Attends calls telling (sys.addEnlistment l onCompletion).2 := by
  intro hsys
  let sys' := (sys.addEnlistment l onCompletion).2
  have hold {e : EnlistmentKey} (he : e < sys.enlistments.length) :
      sys'.enlistment e = sys.enlistment e := getD_append_of_lt he _ default
  have hnew : sys'.enlistment sys.enlistments.length = { lease := l, onCompletion := onCompletion } :=
    getD_length_append _ _ default
  have hlength : sys'.enlistments.length = sys.enlistments.length + 1 := List.length_append ..
  have hshared {l : LeaseKey} (hl : sys.Shared l) : sys'.Shared l := by
    obtain ⟨e, he, hrow⟩ := hl
    exact ⟨e, by rw [hlength]; exact Nat.lt_succ_of_lt he, by rwa [hold he]⟩
  refine ⟨⟨fun e he => ?_, fun tx e he => ?_, fun e he => ?_, hsys.probe, hsys.closed,
    fun registry tx l hl => ?_⟩, ⟨rfl, Nat.le_refl _, fun _ h => h, fun _ h => h,
    fun _ _ _ h _ => .inl h, fun _ _ _ h => .inl h⟩⟩
  · rcases Nat.lt_succ_iff_lt_or_eq.1 (hlength ▸ he) with he | rfl
    · rw [hold he]
      exact hsys.enlistment e he
    · rw [hnew]
      exact ⟨hl, htx⟩
  · obtain ⟨hlt, hrow⟩ := hsys.participant tx e he
    rw [hold hlt, hlength]
    exact ⟨Nat.lt_succ_of_lt hlt, hrow⟩
  · obtain ⟨hlt, hrow⟩ := hsys.told e he
    rw [hold hlt, hlength]
    exact ⟨Nat.lt_succ_of_lt hlt, hrow⟩
  · obtain ⟨hlt, htx, hdue, hopen⟩ := hsys.slot registry tx l hl
    refine ⟨hlt, htx, hdue.imp_right fun ⟨e, hsame, he⟩ => ⟨e, ?_, he⟩, fun h h' =>
      hshared (hopen h h')⟩
    have hlt : e < sys.enlistments.length :=
      he.elim (fun he => (hsys.participant tx e he).1) fun he => (hsys.told e he).1
    rw [hold hlt, hsame]

/-! ## Participants that join -/

/-- The participant may join the transaction of the context: a registry's enlistment only that of its
lease. -/
def Joins (calls : RegistryKey → TxKey → Prop) (sys : System) (cx : Context) : Participant → Prop
  | .enlisted e => e < sys.enlistments.length ∧ ((sys.enlistment e).onCompletion = .count ∨
      ∀ tx, cx.transaction = some tx → (sys.lease (sys.enlistment e).lease).tx = tx)
  | .probe p => ∀ registry tx, p.Asks registry tx → calls registry tx
  | .idle => True

theorem attends_holdFor (sys : System) (p : Participant) :
    sys.Attends calls telling (sys.holdFor p) := by
  unfold holdFor
  cases p.registryKey? with
  | none => exact .refl calls telling sys
  | some registry => exact attends_setRegistry rfl

theorem joins_holdFor {p : Participant} (h : sys.Joins calls cx p) :
    (sys.holdFor p).Joins calls cx p := by
  cases p with
  | enlisted e => exact h
  | probe p => exact h
  | idle => exact h

theorem attends_participate {p : Participant} (hp : sys.Joins calls cx p)
    (hcx : cx.transaction = some tx) (hlt : tx < sys.transactions.length)
    (hopen : (sys.transaction tx).isOpen = true) :
    let t := sys.transaction tx
    sys.Attends calls telling (sys.setTransaction tx { t with participants := t.participants ++ [p] }) := by
  intro t hsys
  let sys' := sys.setTransaction tx { t with participants := t.participants ++ [p] }
  have hself : sys'.transaction tx = { t with participants := t.participants ++ [p] } :=
    transaction_setTransaction_self hlt _
  have hother {tx' : TxKey} (hne : tx' ≠ tx) : sys'.transaction tx' = sys.transaction tx' :=
    transaction_setTransaction_of_ne (Ne.symm hne) sys _
  have hisOpen (tx' : TxKey) : (sys'.transaction tx').isOpen = (sys.transaction tx').isOpen := by
    by_cases hsame : tx' = tx
    · rw [hsame, hself]
      rfl
    · rw [hother hsame]
  have hcompleting (tx' : TxKey) :
      (sys'.transaction tx').completing = (sys.transaction tx').completing := by
    by_cases hsame : tx' = tx
    · rw [hsame, hself]
    · rw [hother hsame]
  have hmem {tx' : TxKey} {q : Participant} : q ∈ (sys'.transaction tx').participants ↔
      q ∈ (sys.transaction tx').participants ∨ tx' = tx ∧ q = p := by
    by_cases hsame : tx' = tx
    · rw [hsame, hself, List.mem_append, List.mem_singleton]
      simp only [true_and, t]
    · rw [hother hsame]
      simp only [hsame, false_and, or_false]
  refine ⟨⟨hsys.enlistment, fun tx' e he => ?_, fun e he => ?_, fun q hq => ?_, fun tx' hclosed => ?_,
    fun registry tx' l hl => ?_⟩, ⟨List.length_set .., Nat.le_refl _, fun tx' => by rw [hisOpen]; exact id,
    fun tx' => by rw [hcompleting]; exact id, fun _ _ _ h _ => .inl h, fun _ _ _ h => .inl h⟩⟩
  · rcases hmem.1 he with he | ⟨rfl, rfl⟩
    · exact hsys.participant tx' e he
    · exact ⟨hp.1, hp.2.imp_right fun h => h _ hcx⟩
  · rw [hisOpen]
    exact hsys.told e he
  · rcases hq with hq | ⟨tx', hq⟩
    · exact hsys.probe q (.inl hq)
    · rcases hmem.1 hq with hq | ⟨-, rfl⟩
      · exact hsys.probe q (.inr ⟨tx', hq⟩)
      · exact hp
  · rw [hisOpen] at hclosed
    have hne : tx' ≠ tx := by
      rintro rfl
      rw [hopen] at hclosed
      cases hclosed
    rw [hother hne, hsys.closed tx' hclosed]
  · obtain ⟨hlt, htx, hdue, hshared⟩ := hsys.slot registry tx' l hl
    refine ⟨hlt, htx, hdue.imp_right fun ⟨e, hsame, he⟩ => ⟨e, hsame, ?_⟩, fun hopen' =>
      hshared (by rwa [← hisOpen])⟩
    exact he.imp_left fun he => hmem.2 (.inl he)

theorem attends_enlist {p : Participant} (hp : sys.Joins calls cx p) :
    sys.Attends calls telling (sys.enlist cx p).2 := by
  unfold enlist
  cases hcx : cx.transaction with
  | none => exact .refl calls telling sys
  | some tx =>
    dsimp only
    cases hcheck : (sys.transaction tx).checkAccepting (sys.txId tx) sys.clock with
    | error e => exact .refl calls telling sys
    | ok u =>
      obtain ⟨hlt, hopen⟩ := of_checkAccepting hcheck
      have hrow : (sys.holdFor p).transaction tx = sys.transaction tx :=
        transaction_of_eq (keeps_holdFor sys p).transactions tx
      have hjoins : (sys.holdFor p).Attends calls telling _ :=
        attends_participate (joins_holdFor hp) hcx (by rwa [(keeps_holdFor sys p).transactions])
          (by rwa [hrow])
      rw [hrow] at hjoins
      exact (attends_holdFor sys p).trans hjoins

end System

end ScopedStore
