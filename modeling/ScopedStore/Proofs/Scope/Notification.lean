import ScopedStore.Proofs.Scope.Attendance

/-!
# Telling participants the outcome

Each participant of a transaction that completes is told the outcome once; the enlistment of a lease settles
it then. What a participant does when it looks around, and what closing another scope does on the way, keeps
registered leases attended to (`System.attentive_closeWithin`).
-/

namespace ScopedStore

namespace System

def AttentiveAcquire (calls : RegistryKey → TxKey → Prop) (acquire : AcquireLease) : Prop :=
  ∀ (telling : List Participant) (sys : System) (registry : RegistryKey) (cx : Context),
    (∀ tx, cx.transaction = some tx → calls registry tx) →
      sys.Attends calls telling (acquire sys registry cx).2

variable {calls : RegistryKey → TxKey → Prop} {telling : List Participant} {close : CloseScope}
  {acquire : AcquireLease} {sys sys' : System} {registry : RegistryKey} {tx : TxKey} {l : LeaseKey}
  {e : EnlistmentKey} {cx : Context} {p : Participant}

/-! ## Settling a lease -/

theorem settleLease_rows (sys : System) (l : LeaseKey)
    (act : Client → SessionId → Except StoreError Unit × Client) :
    (sys.settleLease l act).2.registries = sys.registries ∧
      (sys.settleLease l act).2.enlistments = sys.enlistments ∧
      (sys.settleLease l act).2.leases = sys.leases.set l { sys.lease l with completed := true } := by
  cases hcompleted : (sys.lease l).completed with
  | true =>
    have hsame : sys.settleLease l act = (.ok (), sys) := if_pos hcompleted
    have hrow : { sys.lease l with completed := true } = sys.lease l := by rw [← hcompleted]
    rw [hsame, hrow, set_lease]
    exact ⟨rfl, rfl, rfl⟩
  | false =>
    rw [settleLease_of_open hcompleted]
    exact ⟨rfl, rfl, rfl⟩

theorem disposeLease_rows (sys : System) (l : LeaseKey) :
    (sys.disposeLease l).registries = sys.registries ∧
      (sys.disposeLease l).enlistments = sys.enlistments ∧
      (sys.disposeLease l).leases = sys.leases.set l { sys.lease l with disposed := true } := by
  cases hdisposed : (sys.lease l).disposed with
  | true =>
    have hsame : sys.disposeLease l = sys := if_pos hdisposed
    have hrow : { sys.lease l with disposed := true } = sys.lease l := by rw [← hdisposed]
    rw [hsame, hrow, set_lease]
    exact ⟨rfl, rfl, rfl⟩
  | false =>
    have hdisposes : sys.disposeLease l = _ := if_neg (by rw [hdisposed]; exact Bool.false_ne_true)
    rw [hdisposes]
    exact ⟨rfl, rfl, rfl⟩

theorem lease_of_set_cases {row : Lease} (hleases : sys'.leases = sys.leases.set l row)
    (l' : LeaseKey) : sys'.lease l' = sys.lease l' ∨ l' = l ∧ sys'.lease l' = row := by
  by_cases hlt : l < sys.leases.length
  · rw [lease_of_set hlt hleases]
    split
    · rename_i hsame
      exact .inr ⟨hsame, rfl⟩
    · exact .inl rfl
  · rw [List.set_eq_of_length_le (Nat.le_of_not_lt hlt)] at hleases
    exact .inl (lease_of_eq hleases l')

theorem attends_setLease {row : Lease} (hleases : sys'.leases = sys.leases.set l row)
    (henlistments : sys'.enlistments = sys.enlistments)
    (htransactions : sys'.transactions = sys.transactions)
    (hregistries : sys'.registries = sys.registries) (htx : row.tx = (sys.lease l).tx)
    (hcompleted : (sys.lease l).completed = true → row.completed = true)
    (hshared : row.completed = true → (sys.lease l).completed = true ∨ ∀ registry tx,
      sys.lookup registry tx = some l → (sys.transaction tx).isOpen = true → sys.Shared l) :
    sys.Attends calls telling sys' := by
  have hrows : sys.SameRows sys' := by
    refine ⟨by rw [hleases, List.length_set], fun l' => ?_, by rw [henlistments], fun e => ?_,
      fun tx => by rw [transaction_of_eq htransactions],
      fun tx => by rw [transaction_of_eq htransactions]⟩
    · rcases lease_of_set_cases hleases l' with hsame | ⟨rfl, hsame⟩ <;> rw [hsame]
      · exact ⟨rfl, id⟩
      · exact ⟨htx, hcompleted⟩
    · rw [enlistment_of_eq henlistments]
      exact ⟨rfl, rfl⟩
  refine fun hsys => ⟨hrows.attended (fun registry tx l' hl' => ?_)
    (fun registry tx l' hl' hopen hsettled => ?_) hsys,
    hrows.advances (by rw [htransactions]) (fun tx => ?_) fun registry => ?_⟩
  · rwa [lookup_of_eq hregistries] at hl'
  · rcases lease_of_set_cases hleases l' with hsame | ⟨rfl, hsame⟩ <;> rw [hsame] at hsettled
    · exact .inl hsettled
    · exact (hshared hsettled).imp_right fun hshared => hshared registry tx hl' hopen
  · rw [transaction_of_eq htransactions]
    exact id
  · rw [registry_of_eq hregistries]

theorem attends_disposeLease (sys : System) (l : LeaseKey) :
    sys.Attends calls telling (sys.disposeLease l) := by
  obtain ⟨hregistries, henlistments, hleases⟩ := sys.disposeLease_rows l
  exact attends_setLease hleases henlistments (keeps_disposeLease sys l).transactions hregistries rfl id
    .inl

theorem attends_finish (hshared : ∀ registry tx, sys.lookup registry tx = some l →
      (sys.transaction tx).isOpen = true → sys.Shared l)
    (act : Client → SessionId → Except StoreError Unit × Client) :
    sys.Attends calls telling ((sys.settleLease l act).2.disposeLease l) := by
  obtain ⟨hregistries, henlistments, hleases⟩ := sys.settleLease_rows l act
  have hsettled : sys.Attends calls telling (sys.settleLease l act).2 :=
    attends_setLease hleases henlistments (keeps_settleLease sys l act).transactions hregistries rfl
      (fun _ => rfl) fun _ => .inr hshared
  exact hsettled.trans (attends_disposeLease _ l)

theorem completed_of_finish (hl : l < sys.leases.length)
    (act : Client → SessionId → Except StoreError Unit × Client) :
    (((sys.settleLease l act).2.disposeLease l).lease l).completed = true := by
  obtain ⟨-, -, hleases⟩ := sys.settleLease_rows l act
  obtain ⟨-, -, hleases'⟩ := (sys.settleLease l act).2.disposeLease_rows l
  have hsettled := lease_of_set hl hleases l
  rw [if_pos rfl] at hsettled
  rw [lease_of_set (by rwa [hleases, List.length_set]) hleases', if_pos rfl, hsettled]

/-! ## Telling an enlistment -/

theorem find?_unregister (sys : System) (e : EnlistmentKey) (registry : RegistryKey)
    (h : ∀ registry', (sys.enlistment e).onCompletion ≠ .detach registry' tx) :
    ((sys.unregister e).registry registry).slots.find? tx =
      (sys.registry registry).slots.find? tx := by
  cases hcompletion : (sys.enlistment e).onCompletion with
  | detach registry' tx' =>
    refine (sys.unregister_slots e).2 _ _ _ _ hcompletion ?_
    rintro rfl
    exact h registry' hcompletion
  | count =>
    unfold unregister
    dsimp only
    rw [hcompletion]
    split <;> rfl

theorem sameRows_unregister (sys : System) (e : EnlistmentKey) : sys.SameRows (sys.unregister e) := by
  obtain ⟨-, hleases⟩ := sys.unregister_frame e
  obtain ⟨-, -, henlistments, henlistment⟩ := sys.unregister_rows e
  have hrow := transaction_of_eq (keeps_unregister sys e).transactions
  refine ⟨by rw [hleases], fun l => ?_, henlistments,
    fun e' => ⟨(henlistment e').1, (henlistment e').2.1⟩, fun tx => by rw [hrow],
    fun tx => by rw [hrow]⟩
  rw [lease_of_eq hleases]
  exact ⟨rfl, id⟩

theorem attends_unregister (hclosed : ∀ registry tx,
      (sys.enlistment e).onCompletion = .detach registry tx → (sys.transaction tx).isOpen = false) :
    sys.Attends calls telling (sys.unregister e) := by
  have hrows := sameRows_unregister sys e
  obtain ⟨-, hleases⟩ := sys.unregister_frame e
  have hslot := (sys.unregister_slots e).1
  have htransactions := (keeps_unregister sys e).transactions
  have hkept {registry : RegistryKey} {tx : TxKey} (hopen : (sys.transaction tx).isOpen = true) :
      ((sys.unregister e).registry registry).slots.find? tx =
        (sys.registry registry).slots.find? tx := by
    refine find?_unregister sys e registry fun registry' hcompletion => ?_
    rw [hclosed registry' tx hcompletion] at hopen
    cases hopen
  refine fun hsys => ⟨hrows.attended (fun registry tx l hl => ?_) (fun registry tx l _ _ hsettled => ?_)
    hsys, ⟨by rw [htransactions], Nat.le_of_eq hrows.leases.symm, fun tx hopen => ?_, fun tx => ?_,
    fun registry tx slot hfind hopen => .inl ?_, fun registry tx slot hfind => .inl ?_⟩⟩
  · obtain ⟨slot, hfind, hl⟩ := Option.bind_eq_some_iff.1 hl
    exact Option.bind_eq_some_iff.2 ⟨slot, (hslot registry tx slot hfind).1, hl⟩
  · rw [lease_of_eq hleases] at hsettled
    exact .inl hsettled
  · rwa [← hrows.isOpen]
  · rw [transaction_of_eq htransactions]
    exact id
  · rwa [hkept (by rwa [← hrows.isOpen])]
  · exact (hslot registry tx slot hfind).1

theorem Attended.notifyEnlistment (hsys : sys.Attended calls telling) (he : .enlisted e ∈ telling)
    (phase : Phase) :
    (sys.notifyEnlistment e phase).2.Attended calls telling ∧
      sys.Advances calls (sys.notifyEnlistment e phase).2 ∧
      (phase ≠ .prepare → ((sys.notifyEnlistment e phase).2.lease
        ((sys.notifyEnlistment e phase).2.enlistment e).lease).completed = true) := by
  obtain ⟨hlt, hdue⟩ := hsys.told e he
  obtain ⟨hl, htx⟩ := hsys.enlistment e hlt
  let l := (sys.enlistment e).lease
  let sys₁ := sys.unregister e
  have hrows := sameRows_unregister sys e
  obtain ⟨-, hleases⟩ := sys.unregister_frame e
  have hunregisters : sys.Attends calls telling sys₁ := by
    refine attends_unregister fun registry tx hcompletion => ?_
    rcases hdue with hcount | hclosed
    · rw [hcompletion] at hcount
      cases hcount
    · rwa [htx registry tx hcompletion] at hclosed
  have hshared : ∀ registry tx, sys₁.lookup registry tx = some l →
      (sys₁.transaction tx).isOpen = true → sys₁.Shared l := by
    intro registry tx hlookup hopen
    rcases hdue with hcount | hclosed
    · exact hrows.shared ⟨e, hlt, rfl, hcount⟩
    · obtain ⟨-, hlease_tx, -⟩ := (hunregisters hsys).1.slot registry tx l hlookup
      rw [(hrows.lease l).1] at hlease_tx
      rw [hrows.isOpen, ← hlease_tx, hclosed] at hopen
      cases hopen
  -- committing and aborting differ in the call that settles the lease
  have hdone (act : Client → SessionId → Except StoreError Unit × Client) :
      let final := (sys₁.settleLease l act).2.disposeLease l
      final.Attended calls telling ∧ sys.Advances calls final ∧
        (phase ≠ .prepare → (final.lease (final.enlistment e).lease).completed = true) := by
    intro final
    obtain ⟨hattended, hadvances⟩ := (hunregisters.trans (attends_finish hshared act)) hsys
    have hsame : (final.enlistment e).lease = l := by
      have henlistments : final.enlistments = sys₁.enlistments :=
        ((sys₁.settleLease l act).2.disposeLease_rows l).2.1.trans (sys₁.settleLease_rows l act).2.1
      rw [enlistment_of_eq henlistments]
      exact (hrows.enlistment e).1
    refine ⟨hattended, hadvances, fun _ => ?_⟩
    rw [hsame]
    exact completed_of_finish (by rwa [hleases]) act
  cases phase with
  | prepare => exact ⟨hsys, .refl calls sys, fun h => absurd rfl h⟩
  | commit => exact hdone Client.commitTransaction
  | rollback | inDoubt => exact hdone Client.abortTransaction

/-! ## Making a lease -/

/-- The lease is not settled and one of its enlistments takes part in its transaction, which is open. -/
structure Ongoing (sys : System) (tx : TxKey) (l : LeaseKey) : Prop where
  lt : l < sys.leases.length
  lease_tx : (sys.lease l).tx = tx
  completed : (sys.lease l).completed = false
  isOpen : (sys.transaction tx).isOpen = true
  participant : ∃ e, (sys.enlistment e).lease = l ∧
    .enlisted e ∈ (sys.transaction tx).participants

theorem enlist_enlisted (hcx : cx.transaction = some tx) (sys : System) (e : EnlistmentKey) :
    sys.enlist cx (.enlisted e) =
      match (sys.transaction tx).checkAccepting (sys.txId tx) sys.clock with
      | .error err => (.error err, sys)
      | .ok () => (.ok (), sys.setTransaction tx { sys.transaction tx with
          participants := (sys.transaction tx).participants ++ [.enlisted e] }) := by
  unfold enlist
  rw [hcx]
  rfl

section Enlisting

variable {session : SessionRef} {sys₁ sys₂ : System}
  (hadded : ((sys.addLease { tx := tx, session := session }).2.addEnlistment sys.leases.length
    (.detach registry tx)).2 = sys₁)

include hadded

theorem enlistLease_of_enlisted
    (henlist : sys₁.enlist cx (.enlisted sys.enlistments.length) = (.ok (), sys₂)) :
    sys.enlistLease registry cx tx session = (.ok sys.leases.length, sys₂) := by
  rw [← hadded] at henlist
  unfold enlistLease
  dsimp only [addLease, addEnlistment] at henlist ⊢
  rw [henlist]

theorem enlistLease_of_refused {err : TxError}
    (henlist : sys₁.enlist cx (.enlisted sys.enlistments.length) = (.error err, sys₂)) :
    sys.enlistLease registry cx tx session =
      (.error err, (sys₂.abortLease sys.leases.length).2.disposeLease sys.leases.length) := by
  rw [← hadded] at henlist
  unfold enlistLease
  dsimp only [addLease, addEnlistment] at henlist ⊢
  rw [henlist]

end Enlisting

theorem Attended.enlistLease (hsys : sys.Attended calls telling) (hcx : cx.transaction = some tx)
    (registry : RegistryKey) (session : SessionRef) :
    let made := sys.enlistLease registry cx tx session
    made.2.registries = sys.registries ∧ made.2.Attended calls telling ∧
      sys.Advances calls made.2 ∧
      ∀ l, made.1 = .ok l → sys.leases.length ≤ l ∧ made.2.Ongoing tx l := by
  intro made
  let l := sys.leases.length
  let e := sys.enlistments.length
  let sys₁ := (sys.addLease { tx := tx, session := session }).2
  let sys₂ := (sys₁.addEnlistment l (.detach registry tx)).2
  have hrow : sys₂.lease l = { tx := tx, session := session } := getD_length_append _ _ _
  have henlistment : sys₂.enlistment e = { lease := l, onCompletion := .detach registry tx } :=
    getD_length_append _ _ _
  have hl : l < sys₁.leases.length := by
    show sys.leases.length < (sys.leases ++ [_]).length
    rw [List.length_append]
    exact Nat.lt_succ_self _
  have he : e < sys₂.enlistments.length := by
    show sys.enlistments.length < (sys.enlistments ++ [_]).length
    rw [List.length_append]
    exact Nat.lt_succ_self _
  have hadded : sys.Attends calls telling sys₂ := by
    refine (attends_addLease sys _).trans (attends_addEnlistment hl fun registry' tx' hsame => ?_)
    cases hsame
    exact congrArg Lease.tx hrow
  have hjoins : sys₂.Joins calls cx (.enlisted e) := by
    refine ⟨he, .inr fun tx' hcx' => ?_⟩
    rw [henlistment]
    exact (congrArg Lease.tx hrow).trans (Option.some.inj (hcx.symm.trans hcx'))
  have henlist := enlist_enlisted hcx sys₂ e
  cases hcheck : (sys₂.transaction tx).checkAccepting (sys₂.txId tx) sys₂.clock with
  | error err =>
    rw [hcheck] at henlist
    have hmade : made = _ := enlistLease_of_refused rfl henlist
    rw [hmade]
    have hunshared : ∀ registry' tx', sys₂.lookup registry' tx' = some l →
        (sys₂.transaction tx').isOpen = true → sys₂.Shared l := fun registry' tx' hlookup _ =>
      absurd (hsys.slot registry' tx' l hlookup).1 (Nat.lt_irrefl _)
    have hfinish : sys₂.Attends calls telling ((sys₂.abortLease l).2.disposeLease l) :=
      attends_finish hunshared Client.abortTransaction
    have hregistries := ((sys₂.abortLease l).2.disposeLease_rows l).1.trans
      (sys₂.settleLease_rows l Client.abortTransaction).1
    obtain ⟨hattended, hadvances⟩ := hadded.trans hfinish hsys
    exact ⟨hregistries, hattended, hadvances, fun l' hok => by cases hok⟩
  | ok u =>
    have hjoined : sys₂.Attends calls telling (sys₂.enlist cx (.enlisted e)).2 :=
      attends_enlist hjoins
    rw [hcheck] at henlist
    rw [henlist] at hjoined
    have hmade : made = _ := enlistLease_of_enlisted rfl henlist
    rw [hmade]
    obtain ⟨hlt, hopen⟩ := of_checkAccepting hcheck
    obtain ⟨hattended, hadvances⟩ := hadded.trans hjoined hsys
    refine ⟨rfl, hattended, hadvances, fun l' hok => ?_⟩
    cases hok
    have hself := transaction_setTransaction_self hlt
      { sys₂.transaction tx with
        participants := (sys₂.transaction tx).participants ++ [.enlisted e] }
    refine ⟨Nat.le_refl _, ⟨hl, congrArg Lease.tx hrow, congrArg Lease.completed hrow, ?_, e,
      congrArg Enlistment.lease henlistment, ?_⟩⟩
    · dsimp only
      rw [hself]
      exact hopen
    · dsimp only
      rw [hself]
      exact List.mem_append_right _ (List.mem_singleton_self _)

theorem registries_onClient {α : Type} (sys : System) (client : ClientKey)
    (act : Client → Except StoreError α × Client) :
    (sys.onClient client act).2.registries = sys.registries := by
  unfold onClient
  split <;> rfl

section Creating

variable (hheld : sys.Attends calls telling (sys.closeHeldScope close registry))

include hheld

theorem attends_startRegistrySession (options : SessionOptions) :
    let started := sys.startRegistrySession close registry options
    started.2.registries = (sys.closeHeldScope close registry).registries ∧
      sys.Attends calls telling started.2 := by
  let sys₁ := sys.closeHeldScope close registry
  let client := (sys₁.registry registry).client
  have hregistries := registries_onClient sys₁ client fun c => c.startSession options
  have hstarted : sys.Attends calls telling (sys₁.onClient client fun c => c.startSession options).2 :=
    hheld.trans (attends_onClient _ _ _)
  unfold startRegistrySession
  dsimp only
  split <;> rename_i heq <;> rw [heq] at hregistries hstarted <;> exact ⟨hregistries, hstarted⟩

theorem Attended.createLease (hsys : sys.Attended calls telling) (hcx : cx.transaction = some tx) :
    let made := sys.createLease close registry cx tx
    (made.2.registries = sys.registries ∨
        made.2.registries = (sys.closeHeldScope close registry).registries) ∧
      made.2.Attended calls telling ∧ sys.Advances calls made.2 ∧
      ∀ l, made.1 = .ok l → sys.leases.length ≤ l ∧ made.2.Ongoing tx l := by
  obtain ⟨hregistries, hstarted⟩ := attends_startRegistrySession hheld cx.config.session
  unfold System.createLease
  split
  · exact ⟨.inl rfl, hsys, .refl calls sys, fun l hok => by cases hok⟩
  · split
    · rename_i err sys₁ heq
      rw [heq] at hregistries hstarted
      obtain ⟨hattended, hadvances⟩ := hstarted hsys
      exact ⟨.inr hregistries, hattended, hadvances, fun l hok => by cases hok⟩
    · rename_i session sys₁ heq
      rw [heq] at hregistries hstarted
      dsimp only at hregistries hstarted ⊢
      have hkept := registries_onClient sys₁ session.client fun c =>
        c.startTransaction session.id (sys₁.transaction tx).options
      have hopened : sys.Attends calls telling (sys₁.onClient session.client fun c =>
        c.startTransaction session.id (sys₁.transaction tx).options).2 :=
          hstarted.trans (attends_onClient _ _ _)
      split
      · rename_i err sys₂ heq
        rw [heq] at hkept hopened
        have hended : sys₂.Attends calls telling (sys₂.endSession session) :=
          attends_of_eq rfl rfl rfl fun _ => rfl
        obtain ⟨hattended, hadvances⟩ := hopened.trans hended hsys
        exact ⟨.inr (hkept.trans hregistries), hattended, hadvances, fun l hok => by cases hok⟩
      · rename_i sys₂ heq
        rw [heq] at hkept hopened
        obtain ⟨hready, hadvances⟩ := hopened hsys
        obtain ⟨hsame, hattended, hadvances', hongoing⟩ := hready.enlistLease hcx registry session
        refine ⟨.inr (hsame.trans (hkept.trans hregistries)), hattended, hadvances.trans hadvances',
          fun l hok => ?_⟩
        obtain ⟨hnew, hl⟩ := hongoing l hok
        exact ⟨Nat.le_trans hadvances.leases hnew, hl⟩

end Creating

/-! ## Slots -/

theorem registry_lt_of_find? {slot : Slot}
    (h : (sys.registry registry).slots.find? tx = some slot) : registry < sys.registries.length := by
  by_contra hge
  rw [System.registry, List.getD_eq_getElem?_getD,
    List.getElem?_eq_none (Nat.le_of_not_lt hge)] at h
  cases h

theorem find?_fillSlot (sys : System) (registry : RegistryKey) (tx : TxKey) (slot : Slot)
    (l : LeaseKey) (registry' : RegistryKey) (tx' : TxKey) :
    ((sys.fillSlot registry tx slot l).registry registry').slots.find? tx' =
      if (registry' = registry ∧ tx' = tx) ∧ (sys.registry registry).slots.find? tx = some slot then
        some { slot with lease := some l }
      else (sys.registry registry').slots.find? tx' := by
  by_cases hfind : (sys.registry registry).slots.find? tx = some slot
  · have hfills : sys.fillSlot registry tx slot l = _ := if_pos hfind
    rw [hfills, find?_setRegistry_insert (registry_lt_of_find? hfind) rfl]
    simp only [hfind, and_true]
  · have hfills : sys.fillSlot registry tx slot l = sys := if_neg hfind
    rw [hfills, if_neg fun h => hfind h.2]

theorem find?_releaseSlot (sys : System) (registry : RegistryKey) (tx : TxKey) (slot : Slot)
    (registry' : RegistryKey) (tx' : TxKey) :
    ((sys.releaseSlot registry tx slot).registry registry').slots.find? tx' =
      if (registry' = registry ∧ tx' = tx) ∧ (sys.registry registry).slots.find? tx = some slot then none
      else (sys.registry registry').slots.find? tx' := by
  by_cases hfind : (sys.registry registry).slots.find? tx = some slot
  · have hreleases : sys.releaseSlot registry tx slot = sys.detach registry tx := if_pos hfind
    rw [hreleases, find?_detach]
    simp only [hfind, and_true]
  · have hreleases : sys.releaseSlot registry tx slot = sys := if_neg hfind
    rw [hreleases, if_neg fun h => hfind h.2]

/-- A slot without a lease is there, or one is opened. -/
structure Opened (registry : RegistryKey) (tx : TxKey) (slot : Slot) (sys sys' : System) : Prop where
  empty : slot.lease = none
  leases : sys'.leases = sys.leases
  enlistments : sys'.enlistments = sys.enlistments
  transactions : sys'.transactions = sys.transactions
  other : ∀ registry' tx', ¬(registry' = registry ∧ tx' = tx) →
    (sys'.registry registry').slots.find? tx' = (sys.registry registry').slots.find? tx'
  before : ∀ slot', (sys.registry registry).slots.find? tx = some slot' → slot' = slot
  only : ∀ slot', (sys'.registry registry).slots.find? tx = some slot' → slot' = slot

theorem opened_openSlot (sys : System) (registry : RegistryKey) (tx : TxKey)
    (hempty : (sys.openSlot registry tx).1.lease = none) :
    Opened registry tx (sys.openSlot registry tx).1 sys (sys.openSlot registry tx).2 := by
  cases hfind : (sys.registry registry).slots.find? tx with
  | some slot =>
    have hopens : sys.openSlot registry tx = (slot, sys) := by
      unfold openSlot
      dsimp only
      rw [hfind]
    rw [hopens] at hempty ⊢
    have honly (slot' : Slot) (hslot' : (sys.registry registry).slots.find? tx = some slot') :
        slot' = slot := Option.some.inj (hslot'.symm.trans hfind)
    exact ⟨hempty, rfl, rfl, rfl, fun _ _ _ => rfl, honly, honly⟩
  | none =>
    rw [openSlot_of_none hfind]
    have hbefore (slot' : Slot) (slot : Slot)
        (hslot' : (sys.registry registry).slots.find? tx = some slot') : slot' = slot := by
      rw [hfind] at hslot'
      cases hslot'
    by_cases hlt : registry < sys.registries.length
    · refine ⟨rfl, rfl, rfl, rfl, fun registry' tx' hother => ?_, fun slot' => hbefore slot' _,
        fun slot' hslot' => ?_⟩
      · rw [find?_withSlot hlt, if_neg hother]
      · rw [find?_withSlot hlt, if_pos ⟨rfl, rfl⟩] at hslot'
        exact (Option.some.inj hslot').symm
    · rw [setRegistry_of_ge (Nat.le_of_not_lt hlt)]
      exact ⟨rfl, rfl, rfl, rfl, fun _ _ _ => rfl, fun slot' => hbefore slot' _,
        fun slot' => hbefore slot' _⟩

theorem fillSlot_rows (sys : System) (registry : RegistryKey) (tx : TxKey) (slot : Slot)
    (l : LeaseKey) :
    (sys.fillSlot registry tx slot l).leases = sys.leases ∧
      (sys.fillSlot registry tx slot l).enlistments = sys.enlistments ∧
      (sys.fillSlot registry tx slot l).transactions = sys.transactions := by
  unfold fillSlot
  dsimp only
  split <;> exact ⟨rfl, rfl, rfl⟩

theorem releaseSlot_rows (sys : System) (registry : RegistryKey) (tx : TxKey) (slot : Slot) :
    (sys.releaseSlot registry tx slot).leases = sys.leases ∧
      (sys.releaseSlot registry tx slot).enlistments = sys.enlistments ∧
      (sys.releaseSlot registry tx slot).transactions = sys.transactions := by
  unfold releaseSlot
  dsimp only
  split <;> exact ⟨rfl, rfl, rfl⟩

namespace Opened

variable {slot : Slot} {sys₁ sys₂ sys₃ : System}

theorem attended (h : Opened registry tx slot sys sys₁) (hsys : sys.Attended calls telling) :
    sys₁.Attended calls telling := by
  refine (SameRows.of_eq h.leases h.enlistments h.transactions).attended
    (fun registry' tx' l hl => ?_) (fun _ _ l _ _ hsettled => ?_) hsys
  · obtain ⟨slot', hfind, hl⟩ := Option.bind_eq_some_iff.1 hl
    by_cases hhere : registry' = registry ∧ tx' = tx
    · obtain ⟨rfl, rfl⟩ := hhere
      rw [h.only slot' hfind, h.empty] at hl
      cases hl
    · exact Option.bind_eq_some_iff.2 ⟨slot', by rwa [← h.other registry' tx' hhere], hl⟩
  · rw [lease_of_eq h.leases] at hsettled
    exact .inl hsettled

theorem advances (h : Opened registry tx slot sys sys₁) (hmade : sys₁.Advances calls sys₂)
    (hcalls : calls registry tx) (hleases : sys₃.leases = sys₂.leases)
    (htransactions : sys₃.transactions = sys₂.transactions)
    (hother : ∀ registry' tx', ¬(registry' = registry ∧ tx' = tx) →
      (sys₃.registry registry').slots.find? tx' = (sys₂.registry registry').slots.find? tx')
    (hhere : ∀ slot', (sys₃.registry registry).slots.find? tx = some slot' →
      slot'.lease.isSome ∨ (sys₂.registry registry).slots.find? tx = some slot' ∧ slot' ≠ slot) :
    sys.Advances calls sys₃ := by
  have hrow := transaction_of_eq htransactions
  have hrow₁ := transaction_of_eq h.transactions
  refine ⟨by rw [htransactions, hmade.transactions, h.transactions], ?_, fun tx' hopen => ?_,
    fun tx' hcompleting => ?_, fun registry' tx' slot' hslot' hopen => ?_,
    fun registry' tx' slot' hslot' => ?_⟩
  · rw [hleases, ← h.leases]
    exact hmade.leases
  · rw [hrow] at hopen
    rw [← hrow₁]
    exact hmade.isOpen tx' hopen
  · rw [hrow] at hcompleting
    rw [← hrow₁]
    exact hmade.completing tx' hcompleting
  · by_cases hsame : registry' = registry ∧ tx' = tx
    · obtain ⟨rfl, rfl⟩ := hsame
      rw [h.before slot' hslot']
      exact .inr ⟨h.empty, hcalls⟩
    · rw [hrow] at hopen
      rw [hother registry' tx' hsame]
      rw [← h.other registry' tx' hsame] at hslot'
      exact hmade.kept registry' tx' slot' hslot' hopen
  · by_cases hsame : registry' = registry ∧ tx' = tx
    · obtain ⟨rfl, rfl⟩ := hsame
      rcases hhere slot' hslot' with hfilled | ⟨hslot₂, hne⟩
      · exact .inr ⟨hfilled, hcalls⟩
      · rcases hmade.slot registry' tx' slot' hslot₂ with hslot₁ | hcalled
        · exact absurd (h.only slot' hslot₁) hne
        · exact .inr hcalled
    · rw [hother registry' tx' hsame] at hslot'
      rw [← h.other registry' tx' hsame]
      exact hmade.slot registry' tx' slot' hslot'

end Opened

theorem Attended.fillSlot (hsys : sys.Attended calls telling) (hl : sys.Ongoing tx l)
    (registry : RegistryKey) (slot : Slot) :
    (sys.fillSlot registry tx slot l).Attended calls telling := by
  obtain ⟨hleases, henlistments, htransactions⟩ := sys.fillSlot_rows registry tx slot l
  let sys' := sys.fillSlot registry tx slot l
  have hlease := lease_of_eq hleases
  have henlistment := enlistment_of_eq henlistments
  have hrow := transaction_of_eq htransactions
  have hlookup (registry' : RegistryKey) (tx' : TxKey) (l' : LeaseKey)
      (hl' : sys'.lookup registry' tx' = some l') :
      sys.lookup registry' tx' = some l' ∨ tx' = tx ∧ l' = l := by
    obtain ⟨slot', hfind, hl'⟩ := Option.bind_eq_some_iff.1 hl'
    rw [find?_fillSlot] at hfind
    split at hfind
    · rename_i hhere
      cases hfind
      exact .inr ⟨hhere.1.2, (Option.some.inj hl').symm⟩
    · exact .inl (Option.bind_eq_some_iff.2 ⟨slot', hfind, hl'⟩)
  refine ⟨?_, ?_, ?_, ?_, ?_, fun registry' tx' l' hl' => ?_⟩
  · simpa only [hlease, henlistment, hleases, henlistments] using hsys.enlistment
  · simpa only [hlease, henlistment, henlistments, hrow] using hsys.participant
  · simpa only [hlease, henlistment, henlistments, hrow] using hsys.told
  · simpa only [hrow] using hsys.probe
  · simpa only [hrow] using hsys.closed
  · unfold Due Shared
    rw [hlease, hrow, hleases, henlistments]
    simp only [henlistment]
    rcases hlookup registry' tx' l' hl' with hl' | ⟨rfl, rfl⟩
    · exact hsys.slot registry' tx' l' hl'
    · obtain ⟨e, hsame, he⟩ := hl.participant
      refine ⟨hl.lt, hl.lease_tx, .inr ⟨e, hsame, .inl he⟩, fun _ hsettled => ?_⟩
      rw [hl.completed] at hsettled
      cases hsettled

theorem Attended.releaseSlot (hsys : sys.Attended calls telling) (registry : RegistryKey)
    (tx : TxKey) (slot : Slot) : (sys.releaseSlot registry tx slot).Attended calls telling := by
  obtain ⟨hleases, henlistments, htransactions⟩ := sys.releaseSlot_rows registry tx slot
  refine (SameRows.of_eq hleases henlistments htransactions).attended
    (fun registry' tx' l hl => ?_) (fun _ _ l _ _ hsettled => ?_) hsys
  · obtain ⟨slot', hfind, hl⟩ := Option.bind_eq_some_iff.1 hl
    rw [find?_releaseSlot] at hfind
    split at hfind
    · cases hfind
    · exact Option.bind_eq_some_iff.2 ⟨slot', hfind, hl⟩
  · rw [lease_of_eq hleases] at hsettled
    exact .inl hsettled

/-! ## Acquiring a lease -/

theorem Attentive.closeHeldScope (h : Attentive calls close) (telling : List Participant)
    (sys : System) (registry : RegistryKey) :
    sys.Attends calls telling (sys.closeHeldScope close registry) := by
  unfold System.closeHeldScope
  dsimp only
  split
  · exact .refl calls telling sys
  · rename_i scope _
    have hset : sys.Attends calls telling
        (sys.setRegistry registry { sys.registry registry with closing := none }) :=
      attends_setRegistry rfl
    have hreported (sys : System) (outcome : Except TxError Unit) :
        sys.Attends calls telling (sys.report (.closed outcome)) :=
      attends_of_eq rfl rfl rfl fun _ => rfl
    exact (hset.trans (h telling _ scope)).trans (hreported _ _)

theorem Attentive.acquireWith (h : Attentive calls close) :
    AttentiveAcquire calls (acquireWith close) := by
  intro telling sys registry cx hcalls hsys
  unfold System.acquireWith
  cases hcx : cx.transaction with
  | none => exact ⟨hsys, .refl calls sys⟩
  | some tx =>
    dsimp only
    have hopens := sys.opened_openSlot registry tx
    have hheld : ∀ lease, (sys.openSlot registry tx).1.lease = some lease →
        (sys.openSlot registry tx).2 = sys := by
      intro lease hlease
      unfold openSlot at hlease ⊢
      dsimp only at hlease ⊢
      split at hlease
      · rfl
      · cases hlease
    generalize sys.openSlot registry tx = opened at *
    obtain ⟨slot, sys₁⟩ := opened
    dsimp only at hopens hheld ⊢
    split
    · rename_i lease hlease
      rw [hheld lease hlease]
      exact ⟨hsys, .refl calls sys⟩
    · rename_i hempty
      have hopened := hopens hempty
      obtain ⟨-, hattended, hadvances, hongoing⟩ := (hopened.attended hsys).createLease
        (h.closeHeldScope telling sys₁ registry) hcx
      split
      · rename_i l sys₂ heq
        rw [heq] at hattended hadvances hongoing
        obtain ⟨-, hl⟩ := hongoing l rfl
        obtain ⟨hleases, -, htransactions⟩ := sys₂.fillSlot_rows registry tx slot l
        refine ⟨hattended.fillSlot hl registry slot, hopened.advances hadvances (hcalls tx hcx) hleases
          htransactions (fun registry' tx' hother => ?_) fun slot' hslot' => ?_⟩
        · rw [find?_fillSlot, if_neg fun hhere => hother hhere.1]
        · rw [find?_fillSlot] at hslot'
          split at hslot'
          · cases hslot'
            exact .inl rfl
          · rename_i hnot
            exact .inr ⟨hslot', fun hsame => hnot ⟨⟨rfl, rfl⟩, by rw [hslot', hsame]⟩⟩
      · rename_i err sys₂ heq
        rw [heq] at hattended hadvances
        obtain ⟨hleases, -, htransactions⟩ := sys₂.releaseSlot_rows registry tx slot
        refine ⟨hattended.releaseSlot registry tx slot, hopened.advances hadvances (hcalls tx hcx) hleases
          htransactions (fun registry' tx' hother => ?_) fun slot' hslot' => ?_⟩
        · rw [find?_releaseSlot, if_neg fun hhere => hother hhere.1]
        · rw [find?_releaseSlot] at hslot'
          split at hslot'
          · cases hslot'
          · rename_i hnot
            exact .inr ⟨hslot', fun hsame => hnot ⟨⟨rfl, rfl⟩, by rw [hslot', hsame]⟩⟩

end System

end ScopedStore
