import ScopedStore.Proofs.Scope.Bookkeeping
import ScopedStore.Proofs.Scope.Completion

/-!
# Closing a scope keeps the books

When a transaction completes, each of its enlistments takes its slot out, settles and disposes of its
lease (`System.Disciplined.notifyEnlistment`). In the end the transaction has no slot and no lease that is
not done with, and the other transactions keep theirs (`System.Disciplined.closeWith`).
-/

namespace ScopedStore

namespace System

variable {sys sys' sys'' : System} {telling : List EnlistmentKey} {registry : RegistryKey} {tx : TxKey}
  {l : LeaseKey} {e : EnlistmentKey}

/-! ## Steps that the books do not show -/

/-- Nothing that the books show has changed; sessions may have been started and ended at once. -/
structure Alike (sys sys' : System) : Prop where
  isOpen : ∀ tx, (sys'.transaction tx).isOpen = (sys.transaction tx).isOpen
  participants : ∀ tx, (sys'.transaction tx).participants = (sys.transaction tx).participants
  lookup : ∀ registry tx, sys'.lookup registry tx = sys.lookup registry tx
  leases : sys'.leases = sys.leases
  enlistments : sys'.enlistments = sys.enlistments
  ended : ∀ ref, sys'.ended? ref = sys.ended? ref ∨
    sys.ended? ref = none ∧ sys'.ended? ref = some true
  once : (∀ client, (sys.client client).EndsOnce) → ∀ client, (sys'.client client).EndsOnce
  registries : sys.registries.length ≤ sys'.registries.length
  client_lt : (∀ registry < sys.registries.length,
      (sys.registry registry).client < sys.clients.length) →
    ∀ registry < sys'.registries.length, (sys'.registry registry).client < sys'.clients.length

namespace Alike

theorem of_eq (htransactions : sys'.transactions = sys.transactions)
    (hregistries : sys'.registries = sys.registries) (hleases : sys'.leases = sys.leases)
    (henlistments : sys'.enlistments = sys.enlistments) (hclients : sys'.clients = sys.clients) :
    sys.Alike sys' where
  isOpen tx := by rw [transaction_of_eq htransactions]
  participants tx := by rw [transaction_of_eq htransactions]
  lookup := lookup_of_eq hregistries
  leases := hleases
  enlistments := henlistments
  ended ref := .inl (ended?_of_eq hclients ref)
  once h client := by
    rw [client_of_eq hclients]
    exact h client
  registries := Nat.le_of_eq (by rw [hregistries])
  client_lt h registry hlt := by
    rw [hregistries] at hlt
    rw [registry_of_eq hregistries, hclients]
    exact h registry hlt

theorem owed (h : sys.Alike sys') : sys'.Owed = sys.Owed := by
  funext telling tx e
  unfold Owed
  rw [h.participants]

theorem running (h : sys.Alike sys') {ref : SessionRef} (hrunning : sys'.ended? ref = some false) :
    sys.ended? ref = some false := by
  rcases h.ended ref with heq | ⟨-, hdead⟩
  · rw [← heq, hrunning]
  · rw [hdead] at hrunning
    cases hrunning

theorem disciplined (h : sys.Alike sys') (hd : sys.Disciplined telling) : sys'.Disciplined telling := by
  have hlease := lease_of_eq h.leases
  have henlistment := enlistment_of_eq h.enlistments
  have hr := hd.registered
  refine ⟨hd.booked.kept h.ended (h.once hd.booked.once) (by rw [h.leases])
    fun l => by rw [hlease]; exact ⟨rfl, rfl⟩, ⟨?_, ?_, ?_, ?_, ?_, ?_, ?_⟩, ?_,
    h.client_lt hd.client_lt⟩
  · simpa only [hlease, henlistment, h.leases, h.enlistments] using hr.enlistment
  · simpa only [henlistment, h.enlistments] using hr.apart
  · simpa only [hlease, henlistment, h.enlistments, h.participants] using hr.participant
  · simpa only [hlease, henlistment, h.enlistments, h.isOpen] using hr.due
  · simpa only [h.isOpen, h.participants] using hr.closed
  · simpa only [h.lookup, hlease, henlistment, h.leases, h.owed, h.isOpen] using hr.slot
  · simpa only [hlease, henlistment, h.leases, h.owed] using hr.accounted
  · simpa only [Held, h.lookup, hlease, h.leases, h.isOpen] using hd.held

theorem lasting (h : sys.Alike sys') : sys.Lasting sys' where
  registries := h.registries
  lease l hl := ⟨by rwa [h.leases], by rw [lease_of_eq h.leases]⟩
  isOpen tx hopen := by rwa [← h.isOpen]
  lookup registry tx l hl _ := by rw [h.lookup, hl]

theorem narrows (h : sys.Alike sys') (hregistries : sys'.registries.length = sys.registries.length)
    (hregistry : ∀ registry, (sys'.registry registry).client = (sys.registry registry).client ∧
      (sys'.registry registry).slots = (sys.registry registry).slots)
    (hclients : sys'.clients.length = sys.clients.length) : sys.Narrows sys' where
  registries := hregistries
  clients := hclients
  client registry := (hregistry registry).1
  slot registry tx slot hslot := by rwa [← (hregistry registry).2]
  kept registry tx _ := by rw [(hregistry registry).2]
  isOpen := h.lasting.isOpen
  participants tx := by simp only [h.participants, List.prefix_rfl]
  lease := h.lasting.lease
  running ref hrunning := h.running hrunning

end Alike

theorem narrows_of_eq (htransactions : sys'.transactions = sys.transactions)
    (hregistries : sys'.registries = sys.registries) (hleases : sys'.leases = sys.leases)
    (henlistments : sys'.enlistments = sys.enlistments) (hclients : sys'.clients = sys.clients) :
    sys.Narrows sys' :=
  (Alike.of_eq htransactions hregistries hleases henlistments hclients).narrows (by rw [hregistries])
    (fun registry => by rw [registry_of_eq hregistries]; exact ⟨rfl, rfl⟩) (by rw [hclients])

theorem alike_setRegistry {r : Registry} (hclient : r.client = (sys.registry registry).client)
    (hlookup : ∀ registry' tx,
      (sys.setRegistry registry r).lookup registry' tx = sys.lookup registry' tx) :
    sys.Alike (sys.setRegistry registry r) := by
  refine ⟨fun _ => rfl, fun _ => rfl, hlookup, rfl, rfl, fun _ => .inl rfl, fun h => h,
    Nat.le_of_eq (List.length_set ..).symm, fun h registry' hlt => ?_⟩
  rw [client_setRegistry hclient]
  exact h registry' (by rwa [setRegistry, List.length_set] at hlt)

/-! ## Telling one enlistment -/

theorem unregister_slots (sys : System) (e : EnlistmentKey) :
    (∀ registry tx slot, ((sys.unregister e).registry registry).slots.find? tx = some slot →
      (sys.registry registry).slots.find? tx = some slot ∧
        ∀ l, sys.enlistment e ≠ { lease := l, onCompletion := .detach registry tx }) ∧
      ∀ registry registry' tx tx', (sys.enlistment e).onCompletion = .detach registry' tx' →
        tx ≠ tx' → ((sys.unregister e).registry registry).slots.find? tx =
          (sys.registry registry).slots.find? tx := by
  let row := sys.enlistment e
  let sys₁ := sys.setEnlistment e
    { row with unregistered := true, unregisterCalls := row.unregisterCalls + 1 }
  cases hunregistered : row.unregistered with
  | true =>
    have hsame : sys.unregister e = sys := if_pos hunregistered
    rw [hsame]
    refine ⟨fun registry tx slot hslot => ⟨hslot, fun l hrow => ?_⟩, fun _ _ _ _ _ _ => rfl⟩
    rw [show row = _ from hrow] at hunregistered
    cases hunregistered
  | false =>
    have hunmarked : ¬(sys.enlistment e).unregistered = true := by
      rw [show (sys.enlistment e).unregistered = false from hunregistered]
      exact Bool.false_ne_true
    cases hcompletion : row.onCompletion with
    | count =>
      have hunregisters : sys.unregister e = sys₁ := by
        unfold unregister
        dsimp only
        rw [if_neg hunmarked]
        split
        · rename_i heq
          cases hcompletion.symm.trans heq
        · rfl
      rw [hunregisters]
      refine ⟨fun registry tx slot hslot => ⟨hslot, fun l hrow => ?_⟩, fun _ _ _ _ _ _ => rfl⟩
      rw [show row = _ from hrow] at hcompletion
      cases hcompletion
    | detach registry' tx' =>
      have hunregisters : sys.unregister e = sys₁.detach registry' tx' := by
        unfold unregister
        dsimp only
        rw [if_neg hunmarked]
        split
        · rename_i heq
          cases hcompletion.symm.trans heq
          rfl
        · rename_i heq
          cases hcompletion.symm.trans heq
      rw [hunregisters]
      refine ⟨fun registry tx slot hslot => ?_, fun registry registry'' tx tx'' hsame hne => ?_⟩
      · rw [find?_detach] at hslot
        split at hslot
        · cases hslot
        · rename_i hother
          refine ⟨hslot, fun l hrow => hother ?_⟩
          rw [show row = _ from hrow] at hcompletion
          cases hcompletion
          exact ⟨rfl, rfl⟩
      · cases hsame
        rw [find?_detach, if_neg fun h => hne h.2]
        rfl

theorem unregister_rows (sys : System) (e : EnlistmentKey) :
    (sys.unregister e).registries.length = sys.registries.length ∧
      (∀ registry, ((sys.unregister e).registry registry).client = (sys.registry registry).client) ∧
      (sys.unregister e).enlistments.length = sys.enlistments.length ∧
      ∀ e', ((sys.unregister e).enlistment e').lease = (sys.enlistment e').lease ∧
        ((sys.unregister e).enlistment e').onCompletion = (sys.enlistment e').onCompletion ∧
        (e' ≠ e → (sys.unregister e).enlistment e' = sys.enlistment e') := by
  let row := sys.enlistment e
  let sys₁ := sys.setEnlistment e
    { row with unregistered := true, unregisterCalls := row.unregisterCalls + 1 }
  have hset (e' : EnlistmentKey) : (sys₁.enlistment e').lease = (sys.enlistment e').lease ∧
      (sys₁.enlistment e').onCompletion = (sys.enlistment e').onCompletion ∧
      (e' ≠ e → sys₁.enlistment e' = sys.enlistment e') := by
    by_cases hsame : e' = e
    · by_cases hlt : e < sys.enlistments.length
      · have hself : sys₁.enlistment e = _ := getD_set_self hlt _ default
        rw [hsame, hself]
        exact ⟨rfl, rfl, fun h => absurd rfl h⟩
      · have hid : sys₁.enlistments = sys.enlistments :=
          List.set_eq_of_length_le (Nat.le_of_not_lt hlt)
        rw [enlistment_of_eq hid]
        exact ⟨rfl, rfl, fun _ => rfl⟩
    · have hother : sys₁.enlistment e' = sys.enlistment e' :=
        getD_set_of_ne (Ne.symm hsame) sys.enlistments _ default
      rw [hother]
      exact ⟨rfl, rfl, fun _ => rfl⟩
  unfold unregister
  dsimp only
  split
  · exact ⟨rfl, fun _ => rfl, rfl, fun _ => ⟨rfl, rfl, fun _ => rfl⟩⟩
  · split
    · exact ⟨List.length_set .., fun registry' => sys₁.client_detach _ registry' _, List.length_set .., hset⟩
    · exact ⟨rfl, fun _ => rfl, List.length_set .., hset⟩

/-- Nothing is due from an enlistment whose lease is done with and whose slot is gone. -/
theorem Registered.told (h : sys.Registered (e :: telling))
    (htransactions : sys'.transactions = sys.transactions)
    (henlistments : sys'.enlistments.length = sys.enlistments.length)
    (henlistment : ∀ e', (sys'.enlistment e').lease = (sys.enlistment e').lease ∧
      (sys'.enlistment e').onCompletion = (sys.enlistment e').onCompletion ∧
      (e' ≠ e → sys'.enlistment e' = sys.enlistment e'))
    (hlookup : ∀ registry tx l, sys'.lookup registry tx = some l → sys.lookup registry tx = some l ∧
      ∀ l, sys.enlistment e ≠ { lease := l, onCompletion := .detach registry tx })
    (hlength : sys'.leases.length = sys.leases.length)
    (hlease : ∀ l, sys'.lease l = if l = (sys.enlistment e).lease then
      { sys.lease l with completed := true, disposed := true } else sys.lease l) :
    sys'.Registered telling := by
  have hrow := transaction_of_eq htransactions
  have htx (l : LeaseKey) : (sys'.lease l).tx = (sys.lease l).tx := by
    rw [hlease]
    split <;> rfl
  have hclosed := (h.due e List.mem_cons_self).2
  have howed {tx : TxKey} {e' : EnlistmentKey} (howed : sys.Owed (e :: telling) tx e')
      (hne : e' ≠ e) : sys'.Owed telling tx e' := by
    unfold Owed at howed ⊢
    rw [hrow]
    exact howed.imp_right fun hmem => (List.mem_cons.1 hmem).resolve_left hne
  refine ⟨fun e' he' => ?_, fun e₁ he₁ e₂ he₂ hsame => ?_, fun tx p hp => ?_, fun e' he' => ?_,
    fun tx hnot => ?_, fun registry tx l hl => ?_, fun l hl => ?_⟩
  · rw [henlistments] at he'
    rw [(henlistment e').1, (henlistment e').2.1, htx, hlength]
    exact h.enlistment e' he'
  · rw [henlistments] at he₁ he₂
    rw [(henlistment e₁).1, (henlistment e₂).1] at hsame
    exact h.apart e₁ he₁ e₂ he₂ hsame
  · rw [hrow] at hp
    obtain ⟨e', he', hparticipant, htx'⟩ := h.participant tx p hp
    exact ⟨e', by rw [henlistments]; exact he', hparticipant, by rw [(henlistment e').1, htx, htx']⟩
  · rw [henlistments, (henlistment e').1, htx, hrow]
    exact h.due e' (List.mem_cons_of_mem _ he')
  · rw [hrow] at hnot ⊢
    exact h.closed tx hnot
  · obtain ⟨hl, hother⟩ := hlookup registry tx l hl
    obtain ⟨hlt, hlease_tx, ⟨e', howed', hpristine⟩, hactive⟩ := h.slot registry tx l hl
    have hne : e' ≠ e := fun heq => hother l (by rw [← heq, hpristine])
    refine ⟨by rwa [hlength], by rw [htx, hlease_tx], ⟨e', howed howed' hne,
      by rw [(henlistment e').2.2 hne, hpristine]⟩, fun hopen => ?_⟩
    rw [hrow] at hopen
    rw [hlease, if_neg]
    · exact hactive hopen
    · rintro rfl
      rw [hlease_tx, hopen] at hclosed
      cases hclosed
  · rw [hlength] at hl
    rw [htx, hlease]
    split
    · exact .inl ⟨rfl, rfl⟩
    · rename_i hne
      refine (h.accounted l hl).imp_right fun ⟨e', howed', hsame⟩ => ⟨e', howed howed' ?_, ?_⟩
      · rintro rfl
        exact hne hsame.symm
      · rw [(henlistment e').1, hsame]

theorem Disciplined.notifyEnlistment (h : sys.Disciplined (e :: telling)) {phase : Phase}
    (hphase : phase ≠ .prepare) :
    (sys.notifyEnlistment e phase).2.Disciplined telling ∧
      sys.Narrows (sys.notifyEnlistment e phase).2 := by
  have hr := h.registered
  obtain ⟨he, hclosed⟩ := hr.due e List.mem_cons_self
  obtain ⟨hl, registry, hcompletion⟩ := hr.enlistment e he
  let l := (sys.enlistment e).lease
  let sys₁ := sys.unregister e
  obtain ⟨hclients, hleases⟩ := sys.unregister_frame e
  obtain ⟨hregistries, hclient, henlistments, henlistment⟩ := sys.unregister_rows e
  obtain ⟨hslot, hkept⟩ := sys.unregister_slots e
  have hl₁ : l < sys₁.leases.length := by rwa [hleases]
  -- committing and aborting differ in the call that settles the lease
  have hdone {act : Client → SessionId → Except StoreError Unit × Client}
      (hact : ∀ c id s, Client.session? c id = some s → Client.Lasts c (act c id).2) :
      ((sys₁.settleLease l act).2.disposeLease l).Disciplined telling ∧
        sys.Narrows ((sys₁.settleLease l act).2.disposeLease l) := by
    obtain ⟨hbooked₃, htouches, hlength₃, hlease₃⟩ :=
      (h.booked.of_eq hclients hleases).finish hl₁ hact
    generalize (sys₁.settleLease l act).2.disposeLease l = sys₃ at *
    have htransactions : sys₃.transactions = sys.transactions :=
      htouches.transactions.trans (keeps_unregister sys e).transactions
    have hrow := transaction_of_eq htransactions
    have hregistry := registry_of_eq htouches.registries
    have hlength : sys₃.leases.length = sys.leases.length := by rw [hlength₃, hleases]
    have hlease (l' : LeaseKey) : sys₃.lease l' = if l' = l then
        { sys.lease l' with completed := true, disposed := true } else sys.lease l' := by
      rw [hlease₃, lease_of_eq hleases]
    have htx (l' : LeaseKey) : (sys₃.lease l').tx = (sys.lease l').tx := by
      rw [hlease]
      split <;> rfl
    have hkept₃ (registry : RegistryKey) (tx : TxKey) (hopen : (sys.transaction tx).isOpen = true) :
        (sys₃.registry registry).slots.find? tx = (sys.registry registry).slots.find? tx := by
      rw [hregistry]
      refine hkept _ _ _ _ hcompletion ?_
      rintro rfl
      rw [hopen] at hclosed
      cases hclosed
    refine ⟨⟨hbooked₃, hr.told htransactions ?_ (fun e' => ?_) (fun registry tx l' hl' => ?_) hlength
      hlease, fun l' hl' hopen hlive => ?_, fun registry hlt => ?_⟩, ?_⟩
    · rw [htouches.enlistments, henlistments]
    · rw [enlistment_of_eq htouches.enlistments]
      exact henlistment e'
    · rw [lookup_of_eq htouches.registries] at hl'
      obtain ⟨slot, hfind, hfilled⟩ := Option.bind_eq_some_iff.1 hl'
      obtain ⟨hfind, hother⟩ := hslot registry tx slot hfind
      exact ⟨Option.bind_eq_some_iff.2 ⟨slot, hfind, hfilled⟩, hother⟩
    · rw [hlength] at hl'
      rw [htx, hrow] at hopen
      have hlive' : (sys.lease l').disposed = false := by
        rw [hlease] at hlive
        split at hlive
        · cases hlive
        · exact hlive
      obtain ⟨registry, hlookup⟩ := h.held l' hl' hopen hlive'
      refine ⟨registry, ?_⟩
      unfold lookup at hlookup ⊢
      rw [htx, hkept₃ registry _ hopen, hlookup]
    · rw [htouches.registries, hregistries] at hlt
      rw [hregistry, hclient, htouches.clients, hclients]
      exact h.client_lt registry hlt
    · refine ⟨?_, ?_, fun registry => ?_, fun registry tx slot hfind => ?_, fun registry tx hopen => ?_,
        fun tx hopen => ?_, fun tx => ?_, fun l' hl' => ?_, fun ref hrunning => ?_⟩
      · rw [htouches.registries, hregistries]
      · rw [htouches.clients, hclients]
      · rw [hregistry, hclient]
      · rw [hregistry] at hfind
        exact (hslot registry tx slot hfind).1
      · exact hkept₃ registry tx (by rwa [← hrow])
      · rwa [← hrow]
      · simp only [hrow, List.prefix_rfl]
      · exact ⟨by rwa [hlength], htx l'⟩
      · rw [← ended?_of_eq hclients]
        exact htouches.running ref hrunning
  cases phase with
  | prepare => exact absurd rfl hphase
  | commit => exact hdone fun c id s hs => Client.lasts_commitTransaction hs
  | rollback | inDoubt => exact hdone fun c id s hs => Client.lasts_abortTransaction hs

/-! ## Telling all enlistments -/

/-- Every enlistment that was to be told the outcome has been told. -/
structure Told (sys sys' : System) : Prop where
  disciplined : sys'.Disciplined []
  narrows : sys.Narrows sys'
  transactions : sys'.transactions = sys.transactions

section Telling

variable (acquire : AcquireLease) (key : TxKey) {es : List EnlistmentKey}

theorem Disciplined.told_cons (h : sys.Disciplined (e :: es)) {phase : Phase}
    (hphase : phase ≠ .prepare)
    (hrest : (sys.ask acquire key (.enlisted e) phase).2.Disciplined es →
      (sys.ask acquire key (.enlisted e) phase).2.Told sys') : sys.Told sys' := by
  obtain ⟨htold, hnarrows⟩ := h.notifyEnlistment hphase
  have hrecorded : (sys.notifyEnlistment e phase).2.Alike (sys.ask acquire key (.enlisted e) phase).2 :=
    .of_eq rfl rfl rfl rfl rfl
  have hasked := hrest (hrecorded.disciplined htold)
  refine ⟨hasked.disciplined, (hnarrows.trans ?_).trans hasked.narrows,
    hasked.transactions.trans (keeps_notifyEnlistment sys e phase).transactions⟩
  exact narrows_of_eq rfl rfl rfl rfl rfl

theorem Disciplined.told_nil (h : sys.Disciplined []) : sys.Told sys := ⟨h, .refl sys, rfl⟩

theorem Disciplined.doubtAll (h : sys.Disciplined es) :
    sys.Told (doubtAll acquire key (es.map .enlisted) sys) := by
  induction es generalizing sys with
  | nil => exact h.told_nil
  | cons e rest ih =>
    have hphase : Phase.inDoubt ≠ .prepare := Phase.noConfusion
    exact h.told_cons acquire key hphase fun hasked => ih hasked

theorem Disciplined.rollbackAll (h : sys.Disciplined es) :
    sys.Told (rollbackAll acquire key (es.map .enlisted) sys).2 := by
  induction es generalizing sys with
  | nil => exact h.told_nil
  | cons e rest ih =>
    have hphase : Phase.rollback ≠ .prepare := Phase.noConfusion
    have htold := h.told_cons acquire key hphase fun hasked => ih hasked
    rw [List.map_cons, System.rollbackAll]
    dsimp only
    split <;> exact htold

theorem Disciplined.commitAll (h : sys.Disciplined es) :
    sys.Told (commitAll acquire key (es.map .enlisted) sys).2 := by
  induction es generalizing sys with
  | nil => exact h.told_nil
  | cons e rest ih =>
    have hphase : Phase.commit ≠ .prepare := Phase.noConfusion
    refine h.told_cons acquire key hphase fun hasked => ?_
    rw [List.map_cons, System.commitAll]
    generalize sys.ask acquire key (.enlisted e) .commit = asked at *
    obtain ⟨outcome, sys₁⟩ := asked
    cases outcome with
    | error e => exact hasked.doubtAll acquire key
    | ok u => exact ih hasked

end Telling

/-! ## Completing a transaction -/

theorem setTransaction_of_ge {key : TxKey} (h : sys.transactions.length ≤ key) (t : Transaction) :
    sys.setTransaction key t = sys := by
  unfold setTransaction
  rw [List.set_eq_of_length_le h]

theorem alike_setTransaction {key : TxKey} {t : Transaction} (h : key < sys.transactions.length →
    t.isOpen = (sys.transaction key).isOpen ∧
      t.participants = (sys.transaction key).participants) :
    sys.Alike (sys.setTransaction key t) := by
  by_cases hlt : key < sys.transactions.length
  · obtain ⟨hopen, hparticipants⟩ := h hlt
    refine ⟨fun tx => ?_, fun tx => ?_, fun _ _ => rfl, rfl, rfl, fun _ => .inl rfl, fun h => h,
      Nat.le_refl _, fun h => h⟩
    · by_cases hsame : tx = key
      · rw [hsame, transaction_setTransaction_self hlt, hopen]
      · rw [transaction_setTransaction_of_ne (Ne.symm hsame)]
    · by_cases hsame : tx = key
      · rw [hsame, transaction_setTransaction_self hlt, hparticipants]
      · rw [transaction_setTransaction_of_ne (Ne.symm hsame)]
  · rw [setTransaction_of_ge (Nat.le_of_not_lt hlt)]
    exact .of_eq rfl rfl rfl rfl rfl

/-- The transaction takes no participants any more, if it is there. -/
def Shut (sys : System) (key : TxKey) : Prop :=
  key < sys.transactions.length → (sys.transaction key).isOpen = false

section Completing

variable {key : TxKey} {es : List EnlistmentKey}

theorem Told.settle (h : sys.Told sys') (hclosed : sys.Shut key) {status : Status}
    (hstatus : status ≠ .active) :
    (sys'.settle key status).Disciplined [] ∧ sys.Narrows (sys'.settle key status) := by
  let sys₁ := sys'.setTransaction key ((sys'.transaction key).settle status)
  have hsettled : sys'.Alike sys₁ := by
    refine alike_setTransaction fun hlt => ⟨?_, rfl⟩
    rw [h.transactions] at hlt
    rw [transaction_of_eq h.transactions, hclosed hlt]
    unfold Transaction.settle Transaction.isOpen
    dsimp only
    rw [decide_eq_false hstatus, Bool.false_and]
  have hrecorded : sys₁.Alike (sys'.settle key status) := .of_eq rfl rfl rfl rfl rfl
  refine ⟨hrecorded.disciplined (hsettled.disciplined h.disciplined), h.narrows.trans ?_⟩
  exact (hsettled.narrows rfl (fun _ => ⟨rfl, rfl⟩) rfl).trans (narrows_of_eq rfl rfl rfl rfl rfl)

theorem Disciplined.driveRollback (h : sys.Disciplined es) (hclosed : sys.Shut key)
    (acquire : AcquireLease) :
    (sys.driveRollback acquire key (es.map .enlisted)).2.Disciplined [] ∧
      sys.Narrows (sys.driveRollback acquire key (es.map .enlisted)).2 :=
  (h.rollbackAll acquire key).settle hclosed Status.noConfusion

theorem rollbackReason?_enlisted (acquire : AcquireLease) (key : TxKey) (doomed : Option String)
    (es : List EnlistmentKey) (sys : System) :
    ∃ journal, (sys.rollbackReason? acquire key doomed (es.map .enlisted)).2 =
      { sys with journal := journal } := by
  have hmembers : es.map Participant.enlisted =
      (es.map fun e => (⟨0, e, 0, default⟩ : Member)).map Member.participant := by
    rw [List.map_map]
    rfl
  obtain ⟨journal, -, hafter, -⟩ := rollbackReason?_members acquire key doomed
    (es.map fun e => ⟨0, e, 0, default⟩) sys
  rw [hmembers]
  exact ⟨journal, hafter⟩

theorem Disciplined.driveCommit (h : sys.Disciplined es) (hclosed : sys.Shut key)
    (acquire : AcquireLease) (doomed : Option String) :
    (sys.driveCommit acquire key doomed (es.map .enlisted)).2.Disciplined [] ∧
      sys.Narrows (sys.driveCommit acquire key doomed (es.map .enlisted)).2 := by
  obtain ⟨journal, hafter⟩ := rollbackReason?_enlisted acquire key doomed es sys
  let sys₁ : System := { sys with journal := journal }
  have hrecorded : sys.Alike sys₁ := .of_eq rfl rfl rfl rfl rfl
  have h₁ : sys₁.Disciplined es := hrecorded.disciplined h
  have hnarrows : sys.Narrows sys₁ := narrows_of_eq rfl rfl rfl rfl rfl
  have hclosed₁ : sys₁.Shut key := hclosed
  have hdriven : (sys.driveCommit acquire key doomed (es.map .enlisted)).2.Disciplined [] ∧
      sys₁.Narrows (sys.driveCommit acquire key doomed (es.map .enlisted)).2 := by
    unfold System.driveCommit
    generalize sys.rollbackReason? acquire key doomed (es.map .enlisted) = reason at *
    obtain ⟨error, sys₂⟩ := reason
    obtain rfl : sys₂ = sys₁ := hafter
    cases error with
    | some e => exact h₁.driveRollback hclosed₁ acquire
    | none =>
      have htold := h₁.commitAll acquire key
      dsimp only at htold ⊢
      generalize System.commitAll acquire key (es.map .enlisted) sys₁ = found at *
      obtain ⟨⟨n, failure⟩, sys₃⟩ := found
      cases failure with
      | none => exact htold.settle hclosed₁ Status.noConfusion
      | some e => cases n <;> exact htold.settle hclosed₁ Status.noConfusion
  exact ⟨hdriven.1, hnarrows.trans hdriven.2⟩

theorem exists_enlisted {participants : List Participant}
    (h : ∀ p ∈ participants, ∃ e, p = .enlisted e) :
    ∃ es : List EnlistmentKey, participants = es.map .enlisted := by
  induction participants with
  | nil => exact ⟨[], rfl⟩
  | cons p rest ih =>
    obtain ⟨e, rfl⟩ := h p List.mem_cons_self
    obtain ⟨es, rfl⟩ := ih fun p hp => h p (List.mem_cons_of_mem _ hp)
    exact ⟨e :: es, rfl⟩

theorem Disciplined.completing (h : sys.Disciplined []) (key : TxKey) :
    ∃ es : List EnlistmentKey, (sys.transaction key).participants = es.map .enlisted ∧
      (sys.completing key).Disciplined es ∧ sys.Narrows (sys.completing key) ∧
      (sys.completing key).Shut key := by
  have hr := h.registered
  obtain ⟨es, hes⟩ := exists_enlisted fun p hp => by
    obtain ⟨e, -, he, -⟩ := hr.participant key p hp
    exact ⟨e, he⟩
  have hmem {e : EnlistmentKey} :
      Participant.enlisted e ∈ (sys.transaction key).participants ↔ e ∈ es := by
    rw [hes, List.mem_map]
    exact ⟨fun ⟨e', he', hsame⟩ => by cases hsame; exact he', fun he => ⟨e, he, rfl⟩⟩
  refine ⟨es, hes, ?_⟩
  by_cases hlt : key < sys.transactions.length
  · have hself : (sys.completing key).transaction key =
        { sys.transaction key with completing := true, participants := [] } :=
      transaction_setTransaction_self hlt _
    have hother {tx : TxKey} (hne : tx ≠ key) :
        (sys.completing key).transaction tx = sys.transaction tx :=
      transaction_setTransaction_of_ne (Ne.symm hne) sys _
    have hclosed : ((sys.completing key).transaction key).isOpen = false := by
      rw [hself]
      exact Bool.and_false _
    have hopen_ne {tx : TxKey} (hopen : ((sys.completing key).transaction tx).isOpen = true) :
        tx ≠ key := by
      rintro rfl
      rw [hclosed] at hopen
      cases hopen
    have howed {tx : TxKey} {e : EnlistmentKey} (howed : sys.Owed [] tx e) :
        (sys.completing key).Owed es tx e := by
      have hp := howed.resolve_right List.not_mem_nil
      by_cases hsame : tx = key
      · rw [hsame, hmem] at hp
        exact .inr hp
      · unfold Owed
        rw [hother hsame]
        exact .inl hp
    refine ⟨⟨h.booked.of_eq rfl rfl, ⟨hr.enlistment, hr.apart, fun tx p hp => ?_, fun e he => ?_,
      fun tx hnot => ?_, fun registry tx l hl => ?_, fun l hl => ?_⟩, fun l hl hopen => ?_,
      h.client_lt⟩, ⟨rfl, rfl, fun _ => rfl, fun _ _ _ hslot => hslot, fun _ _ _ => rfl,
      fun tx hopen => ?_, fun tx => ?_, fun l hl => ⟨hl, rfl⟩, fun _ hrunning => hrunning⟩,
      fun _ => hclosed⟩
    · by_cases hsame : tx = key
      · rw [hsame, hself] at hp
        cases hp
      · rw [hother hsame] at hp
        exact hr.participant tx p hp
    · obtain ⟨e', he', hsame, htx⟩ := hr.participant key _ (hmem.2 he)
      cases hsame
      refine ⟨he', ?_⟩
      show ((sys.completing key).transaction (sys.lease (sys.enlistment e).lease).tx).isOpen = false
      rw [htx, hclosed]
    · by_cases hsame : tx = key
      · rw [hsame, hself]
      · rw [hother hsame] at hnot ⊢
        exact hr.closed tx hnot
    · obtain ⟨hlt', htx, ⟨e, howed', hpristine⟩, hactive⟩ := hr.slot registry tx l hl
      refine ⟨hlt', htx, ⟨e, howed howed', hpristine⟩, fun hopen => hactive ?_⟩
      rwa [hother (hopen_ne hopen)] at hopen
    · exact (hr.accounted l hl).imp_right fun ⟨e, howed', hsame⟩ => ⟨e, howed howed', hsame⟩
    · rw [hother (hopen_ne hopen)] at hopen
      exact h.held l hl hopen
    · rwa [hother (hopen_ne hopen)] at hopen
    · by_cases hsame : tx = key
      · rw [hsame, hself]
        exact List.nil_prefix
      · simp only [hother hsame, List.prefix_rfl]
  · have hge := Nat.le_of_not_lt hlt
    have hsame : sys.completing key = sys := setTransaction_of_ge hge _
    have hnone : es = [] := by
      rw [System.transaction, List.getD_eq_getElem?_getD, List.getElem?_eq_none hge] at hes
      exact List.map_eq_nil_iff.1 hes.symm
    rw [hsame, hnone]
    exact ⟨h, .refl sys, fun hlt' => absurd hlt' hlt⟩

theorem Disciplined.completeWith (h : sys.Disciplined []) (close : CloseScope) (key : TxKey)
    {drive : System → List Participant → Except TxError Unit × System}
    (hdrive : ∀ sys es, Disciplined es sys → sys.Shut key →
      (drive sys (es.map .enlisted)).2.Disciplined [] ∧
        sys.Narrows (drive sys (es.map .enlisted)).2) :
    (sys.completeWith close key drive).2.Disciplined [] ∧
      sys.Narrows (sys.completeWith close key drive).2 := by
  cases hopen : (sys.transaction key).isOpen with
  | false =>
    rw [completeWith_of_closed hopen close drive]
    exact ⟨h, .refl sys⟩
  | true =>
    obtain ⟨es, hes, hcompleting, hnarrows, hclosed⟩ := h.completing key
    have hbegin : sys.beginCompletion key = (.ok (es.map .enlisted), sys.completing key) := by
      unfold beginCompletion System.completing
      dsimp only
      rw [if_pos hopen, hes]
    have hdismissed (sys : System) : dismissAll close (es.map .enlisted) sys = sys := by
      clear hes hbegin hcompleting
      induction es with
      | nil => rfl
      | cons e rest ih => exact ih
    obtain ⟨hdisciplined, hdriven⟩ := hdrive _ es hcompleting hclosed
    unfold System.completeWith
    rw [hbegin]
    dsimp only
    rw [hdismissed]
    exact ⟨hdisciplined, hnarrows.trans hdriven⟩

end Completing

/-! ## Closing a scope -/

theorem Disciplined.closeWith (h : sys.Disciplined []) (close : CloseScope) (scope : Scope) :
    (System.closeWith close sys scope).2.Disciplined [] ∧
      sys.Narrows (System.closeWith close sys scope).2 := by
  unfold System.closeWith
  cases scope.context.transaction with
  | none => exact ⟨h, .refl sys⟩
  | some key =>
    cases scope.owns with
    | true =>
      cases scope.completed with
      | true => exact h.completeWith close key fun _ _ hes hclosed => hes.driveCommit hclosed _ _
      | false => exact h.completeWith close key fun _ _ hes hclosed => hes.driveRollback hclosed _
    | false =>
      cases scope.completed with
      | true => exact ⟨h, .refl sys⟩
      | false =>
        have hdoomed : sys.Alike (sys.doom key "joined scope closed without completion") :=
          alike_setTransaction fun _ => ⟨rfl, rfl⟩
        exact ⟨hdoomed.disciplined h, hdoomed.narrows rfl (fun _ => ⟨rfl, rfl⟩) rfl⟩

theorem Disciplined.closeWithin (h : sys.Disciplined []) (n : Nat) (scope : Scope) :
    (System.closeWithin n sys scope).2.Disciplined [] ∧
      sys.Narrows (System.closeWithin n sys scope).2 := by
  cases n <;> exact h.closeWith _ scope

end System

end ScopedStore
