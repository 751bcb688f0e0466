import ScopedStore.Proofs.Client.Frame
import ScopedStore.Proofs.Scope.System

/-!
# How a registry acquires a lease

A registry that has a lease of a transaction gives it again. Otherwise it starts a session with a
transaction for it, which may fail at two places; a failure leaves no more behind than a session that has
ended (`System.acquire_cases`).
-/

namespace ScopedStore

/-- The fault plan makes the start of a session fail, or the start of a transaction. -/
def Client.Denies (c : Client) (e : StoreError) : Prop :=
  c.faults.sessionStarts ≠ 0 ∧ e = .injected "startSession" ∨
    c.faults.transactionStarts ≠ 0 ∧ e = .injected "startTransaction"

namespace System

variable {sys : System} {registry : RegistryKey} {tx : TxKey} {cx : Context}

/-- The client has started a session for a new lease, and the lease is enlisted. -/
def enlisted (sys : System) (registry : RegistryKey) (tx : TxKey) (session : SessionRef) (c : Client) :
    System :=
  let t := sys.transaction tx
  { sys with
    clients := sys.clients.set session.client c
    leases := sys.leases ++ [{ tx := tx, session := session }]
    enlistments :=
      sys.enlistments ++ [{ lease := sys.leases.length, onCompletion := .detach registry tx }]
    transactions :=
      sys.transactions.set tx
        { t with participants := t.participants ++ [.enlisted sys.enlistments.length] } }

/-- The client has at most started a new session, and ended it if there is no transaction in it. -/
structure Prepared (sys : System) (client : ClientKey) (c : Client) : Prop where
  spares : Client.Spares (fun _ => False) (sys.client client) c
  stored : ∀ ns, c.stored ns = (sys.client client).stored ns

/-! ## Making a lease -/

theorem closeHeldScope_of_none (hclosing : (sys.registry registry).closing = none)
    (close : CloseScope) : sys.closeHeldScope close registry = sys := by
  unfold closeHeldScope
  dsimp only
  rw [hclosing]

section Creating

variable {client : ClientKey} {c c₁ c₂ : Client} {id : SessionId} {e : StoreError}
  (hregistry : (sys.registry registry).client = client)
  (hclosing : (sys.registry registry).closing = none)
  (hcheck : (sys.transaction tx).checkAccepting (sys.txId tx) sys.clock = .ok ())
  (close : CloseScope)

include hregistry hclosing

theorem startRegistrySession_eq {options : SessionOptions} {outcome : Except StoreError SessionId}
    (hstart : (sys.client client).startSession options = (outcome, c)) :
    sys.startRegistrySession close registry options =
      ((outcome.mapError .store).map fun id => ⟨client, id⟩, sys.setClient client c) := by
  unfold startRegistrySession
  dsimp only
  rw [closeHeldScope_of_none hclosing, hregistry, onClient_eq hstart]
  cases outcome <;> rfl

include hcheck

theorem createLease_of_unstarted
    (hstart : (sys.client client).startSession cx.config.session = (.error e, c)) :
    sys.createLease close registry cx tx = (.error (.store e), sys.setClient client c) := by
  have hstarted : sys.startRegistrySession close registry cx.config.session =
      (.error (.store e), sys.setClient client c) :=
    startRegistrySession_eq hregistry hclosing close hstart
  unfold createLease
  rw [hcheck, hstarted]

theorem createLease_of_unopened (hclient : client < sys.clients.length)
    (hstart : (sys.client client).startSession cx.config.session = (.ok id, c₁))
    (hopen : c₁.startTransaction id (sys.transaction tx).options = (.error e, c₂)) :
    sys.createLease close registry cx tx =
      (.error (.store e), sys.setClient client (c₂.endSession id)) := by
  let sys₁ := sys.setClient client c₁
  have hstarted : sys.startRegistrySession close registry cx.config.session =
      (.ok ⟨client, id⟩, sys₁) := startRegistrySession_eq hregistry hclosing close hstart
  have hopened : sys₁.onClient client (fun c => c.startTransaction id (sys₁.transaction tx).options) =
      (.error (.store e), sys.setClient client c₂) := by
    rw [onClient_setClient hclient, show sys₁.transaction tx = sys.transaction tx from rfl, hopen]
    rfl
  have hended : (sys.setClient client c₂).endSession ⟨client, id⟩ =
      sys.setClient client (c₂.endSession id) := by
    unfold System.endSession
    rw [client_setClient_self hclient, setClient_setClient]
  unfold createLease
  rw [hcheck, hstarted]
  dsimp only
  rw [hopened]
  dsimp only
  rw [hended]

theorem createLease_of_opened (hclient : client < sys.clients.length)
    (hcx : cx.transaction = some tx)
    (hstart : (sys.client client).startSession cx.config.session = (.ok id, c₁))
    (hopen : c₁.startTransaction id (sys.transaction tx).options = (.ok (), c₂)) :
    sys.createLease close registry cx tx =
      (.ok sys.leases.length, sys.enlisted registry tx ⟨client, id⟩ c₂) := by
  let sys₁ := sys.setClient client c₁
  let sys₂ := sys.setClient client c₂
  let sys₃ := (sys₂.addLease { tx := tx, session := ⟨client, id⟩ }).2
  let sys₄ := (sys₃.addEnlistment sys.leases.length (.detach registry tx)).2
  have hstarted : sys.startRegistrySession close registry cx.config.session =
      (.ok ⟨client, id⟩, sys₁) := startRegistrySession_eq hregistry hclosing close hstart
  have hopened : sys₁.onClient client (fun c => c.startTransaction id (sys₁.transaction tx).options) =
      (.ok (), sys₂) := by
    rw [onClient_setClient hclient, show sys₁.transaction tx = sys.transaction tx from rfl, hopen]
    rfl
  have hlease : sys₂.addLease { tx := tx, session := ⟨client, id⟩ } = (sys.leases.length, sys₃) := rfl
  have henlistment : sys₃.addEnlistment sys.leases.length (.detach registry tx) =
      (sys.enlistments.length, sys₄) := rfl
  have henlist : sys₄.enlist cx (.enlisted sys.enlistments.length) =
      (.ok (), sys.enlisted registry tx ⟨client, id⟩ c₂) := by
    have hcheck₄ : (sys₄.transaction tx).checkAccepting (sys₄.txId tx) sys₄.clock = .ok () := hcheck
    unfold System.enlist
    rw [hcx]
    dsimp only
    rw [hcheck₄]
    rfl
  unfold createLease
  rw [hcheck, hstarted]
  dsimp only
  rw [hopened]
  dsimp only
  rw [hlease]
  dsimp only
  rw [henlistment]
  dsimp only
  rw [henlist]

theorem createLease_denied (hclient : client < sys.clients.length) (hcx : cx.transaction = some tx)
    {failure : TxError} (hfailed : (sys.createLease close registry cx tx).1 = .error failure) :
    ∃ e, failure = .store e ∧ (sys.client client).Denies e := by
  by_cases hstarts : (sys.client client).faults.sessionStarts = 0
  · obtain ⟨id, c₁, hstart, halike, hs⟩ :=
      Client.startSession_of_unarmed hstarts cx.config.session
    by_cases hopens : (sys.client client).faults.transactionStarts = 0
    · obtain ⟨c₂, options, hopen, -⟩ := Client.startTransaction_of_unarmed hs rfl rfl
        (by rw [halike.faults, hopens]) (sys.transaction tx).options
      rw [createLease_of_opened hregistry hclosing hcheck close hclient hcx hstart hopen] at hfailed
      cases hfailed
    · obtain ⟨c₂, hopen⟩ := Client.startTransaction_of_armed hs rfl rfl
        (by rwa [halike.faults]) (sys.transaction tx).options
      rw [createLease_of_unopened hregistry hclosing hcheck close hclient hstart hopen] at hfailed
      cases hfailed
      exact ⟨_, rfl, .inr ⟨hopens, rfl⟩⟩
  · obtain ⟨c₁, hstart⟩ := Client.startSession_of_armed hstarts cx.config.session
    rw [createLease_of_unstarted hregistry hclosing hcheck close hstart] at hfailed
    cases hfailed
    exact ⟨_, rfl, .inl ⟨hstarts, rfl⟩⟩

end Creating

/-- Making a lease fails and leaves no session open, or it enlists a lease of a new session. -/
theorem createLease_cases {client : ClientKey} (hregistry : (sys.registry registry).client = client)
    (hclosing : (sys.registry registry).closing = none) (hclient : client < sys.clients.length)
    (hcx : cx.transaction = some tx) (close : CloseScope) :
    ∃ c, sys.Prepared client c ∧
      ((∃ e, sys.createLease close registry cx tx = (.error e, sys.setClient client c)) ∨
        ∃ id options t, (sys.client client).session? id = none ∧
          c.session? id = some { options := options, transaction := some { options := t } } ∧
          sys.createLease close registry cx tx =
            (.ok sys.leases.length, sys.enlisted registry tx ⟨client, id⟩ c)) := by
  cases hcheck : (sys.transaction tx).checkAccepting (sys.txId tx) sys.clock with
  | error e =>
    refine ⟨sys.client client, ⟨.refl _ _, fun _ => rfl⟩, .inl ⟨e, ?_⟩⟩
    unfold createLease
    rw [setClient_client, hcheck]
  | ok u =>
    obtain ⟨hspares, hstored, hnew⟩ :=
      (sys.client client).startSession_spares cx.config.session
    cases hstart : (sys.client client).startSession cx.config.session with
    | mk started c₁ =>
      rw [hstart] at hspares hstored hnew
      cases started with
      | error e =>
        exact ⟨c₁, ⟨hspares, hstored⟩,
          .inl ⟨_, createLease_of_unstarted hregistry hclosing hcheck close hstart⟩⟩
      | ok id =>
        obtain ⟨hs, hnone⟩ := hnew id rfl
        obtain ⟨hopens, hstored', ⟨s', hs'⟩, hopened⟩ :=
          Client.startTransaction_spares hs (sys.transaction tx).options
        cases hopen : c₁.startTransaction id (sys.transaction tx).options with
        | mk outcome c₂ =>
          rw [hopen] at hopens hstored' hs' hopened
          have hspares₂ := hspares.of_new hopens hnone
          cases outcome with
          | error e =>
            obtain ⟨hends, hended, -⟩ := Client.endSession_spares hs'
            exact ⟨c₂.endSession id, ⟨hspares₂.of_new hends hnone, fun ns =>
              (hended ns).trans ((hstored' ns).trans (hstored ns))⟩,
              .inl ⟨_, createLease_of_unopened hregistry hclosing hcheck close hclient hstart hopen⟩⟩
          | ok u =>
            obtain ⟨-, options', hs₂⟩ := hopened rfl
            exact ⟨c₂, ⟨hspares₂, fun ns => (hstored' ns).trans (hstored ns)⟩,
              .inr ⟨id, _, options', hnone, hs₂,
                createLease_of_opened hregistry hclosing hcheck close hclient hcx hstart hopen⟩⟩

/-! ## Acquiring a lease -/

theorem lease_enlisted (sys : System) (registry : RegistryKey) (tx : TxKey) (session : SessionRef)
    (c : Client) :
    (sys.enlisted registry tx session c).lease sys.leases.length = { tx := tx, session := session } :=
  getD_length_append sys.leases { tx := tx, session := session } default

theorem enlistment_enlisted (sys : System) (registry : RegistryKey) (tx : TxKey)
    (session : SessionRef) (c : Client) :
    ((sys.enlisted registry tx session c).enlistment sys.enlistments.length).lease =
      sys.leases.length :=
  congrArg Enlistment.lease (getD_length_append sys.enlistments _ default)

theorem checkLease_of_completed {l : LeaseKey} (hsettled : (sys.lease l).completed = true) :
    sys.checkLease tx l = .error (.notActive (sys.txId tx) (sys.transaction tx).status) := by
  unfold checkLease
  rw [hsettled]
  rfl

theorem checkLease_of_active {l : LeaseKey} (hactive : (sys.lease l).completed = false) :
    sys.checkLease tx l = .ok l := by
  unfold checkLease
  rw [hactive]
  rfl

def withSlot (r : Registry) (tx : TxKey) : Registry :=
  { r with slots := r.slots.insert tx { serial := r.nextSerial }, nextSerial := r.nextSerial + 1 }

theorem acquire_of_held (hcx : cx.transaction = some tx) {slot : Slot}
    (hslot : (sys.registry registry).slots.find? tx = some slot) {lease : LeaseKey}
    (hlease : slot.lease = some lease) :
    sys.acquire registry cx = (sys.checkLease tx lease, sys) := by
  have hopened : sys.openSlot registry tx = (slot, sys) := by
    unfold openSlot
    dsimp only
    rw [hslot]
  unfold System.acquire acquireWith
  rw [hcx]
  dsimp only
  rw [hopened]
  dsimp only
  rw [hlease]

theorem acquire_of_lookup (hcx : cx.transaction = some tx) {l : LeaseKey}
    (hl : sys.lookup registry tx = some l) :
    sys.acquire registry cx = (sys.checkLease tx l, sys) := by
  obtain ⟨slot, hslot, hlease⟩ := Option.bind_eq_some_iff.1 hl
  exact acquire_of_held hcx hslot hlease

theorem openSlot_of_none (hnone : (sys.registry registry).slots.find? tx = none) :
    sys.openSlot registry tx = ({ serial := (sys.registry registry).nextSerial },
      sys.setRegistry registry (withSlot (sys.registry registry) tx)) := by
  unfold openSlot
  dsimp only
  rw [hnone]
  rfl

section Missing

variable {client : ClientKey} {c : Client} (hlt : registry < sys.registries.length)
  (hcx : cx.transaction = some tx) (hnone : (sys.registry registry).slots.find? tx = none)

include hlt hcx hnone

theorem acquire_of_failed {e : TxError} (hcreate :
    let sys₁ := sys.setRegistry registry (withSlot (sys.registry registry) tx)
    sys₁.createLease (closeWithin sys.heldScopes) registry cx tx = (.error e, sys₁.setClient client c)) :
    let r := withSlot (sys.registry registry) tx
    sys.acquire registry cx = (.error e,
      (sys.setClient client c).setRegistry registry { r with slots := r.slots.erase tx }) := by
  intro r
  let sys₁ := sys.setRegistry registry r
  have hrow : (sys₁.setClient client c).registry registry = r := registry_setRegistry_self hlt r
  have hslot : r.slots.find? tx = some { serial := (sys.registry registry).nextSerial } :=
    SortedMap.find?_insert_self _ _ _
  have hrelease : (sys₁.setClient client c).releaseSlot registry tx
      { serial := (sys.registry registry).nextSerial } =
        (sys.setClient client c).setRegistry registry { r with slots := r.slots.erase tx } := by
    unfold releaseSlot
    dsimp only
    rw [hrow, if_pos hslot]
    exact setRegistry_setRegistry (sys.setClient client c) registry r _
  unfold System.acquire acquireWith
  rw [hcx]
  dsimp only
  rw [openSlot_of_none hnone]
  dsimp only
  rw [hcreate]
  dsimp only
  rw [hrelease]

theorem acquire_of_enlisted {id : SessionId} (hcreate :
    let sys₁ := sys.setRegistry registry (withSlot (sys.registry registry) tx)
    sys₁.createLease (closeWithin sys.heldScopes) registry cx tx =
      (.ok sys.leases.length, sys₁.enlisted registry tx ⟨client, id⟩ c)) :
    let r := withSlot (sys.registry registry) tx
    let slot : Slot :=
      { serial := (sys.registry registry).nextSerial, lease := some sys.leases.length }
    sys.acquire registry cx = (.ok sys.leases.length,
      (sys.enlisted registry tx ⟨client, id⟩ c).setRegistry registry
        { r with slots := r.slots.insert tx slot }) := by
  intro r slot
  let sys₁ := sys.setRegistry registry r
  let sys₂ := (sys.enlisted registry tx ⟨client, id⟩ c).setRegistry registry
    { r with slots := r.slots.insert tx slot }
  have hrow : (sys₁.enlisted registry tx ⟨client, id⟩ c).registry registry = r :=
    registry_setRegistry_self hlt r
  have hslot : r.slots.find? tx = some { serial := (sys.registry registry).nextSerial } :=
    SortedMap.find?_insert_self _ _ _
  have hfill : (sys₁.enlisted registry tx ⟨client, id⟩ c).fillSlot registry tx
      { serial := (sys.registry registry).nextSerial } sys.leases.length = sys₂ := by
    unfold fillSlot
    dsimp only
    rw [hrow, if_pos hslot]
    exact setRegistry_setRegistry (sys.enlisted registry tx ⟨client, id⟩ c) registry r _
  have hlease : sys₂.lease sys.leases.length = { tx := tx, session := ⟨client, id⟩ } :=
    lease_enlisted sys registry tx ⟨client, id⟩ c
  unfold System.acquire acquireWith
  rw [hcx]
  dsimp only
  rw [openSlot_of_none hnone]
  dsimp only
  rw [hcreate]
  dsimp only
  rw [hfill, checkLease_of_active (congrArg Lease.completed hlease)]

end Missing

/-- A registry that has no lease fails and has none afterwards, or it enlists a lease of a new session
and has that. -/
theorem acquire_cases {client : ClientKey} (hregistry : (sys.registry registry).client = client)
    (hclosing : (sys.registry registry).closing = none) (hclient : client < sys.clients.length)
    (hlt : registry < sys.registries.length) (hcx : cx.transaction = some tx)
    (hnone : (sys.registry registry).slots.find? tx = none) :
    ∃ c r, sys.Prepared client c ∧ r.client = client ∧ r.closing = none ∧
      ((∃ e, r.slots.find? tx = none ∧
          sys.acquire registry cx = (.error e, (sys.setClient client c).setRegistry registry r)) ∨
        ∃ id options t slot, (sys.client client).session? id = none ∧
          c.session? id = some { options := options, transaction := some { options := t } } ∧
          r.slots.find? tx = some slot ∧ slot.lease = some sys.leases.length ∧
          sys.acquire registry cx = (.ok sys.leases.length,
            (sys.enlisted registry tx ⟨client, id⟩ c).setRegistry registry r)) := by
  let r := withSlot (sys.registry registry) tx
  let sys₁ := sys.setRegistry registry r
  have hrow : sys₁.registry registry = r := registry_setRegistry_self hlt r
  have hregistry₁ : (sys₁.registry registry).client = client := by
    rw [hrow]
    exact hregistry
  have hclosing₁ : (sys₁.registry registry).closing = none := by
    rw [hrow]
    exact hclosing
  have hclient₁ : client < sys₁.clients.length := hclient
  obtain ⟨c, hprepared, ⟨e, hcreate⟩ | ⟨id, options, t, hmissing, hs, hcreate⟩⟩ :=
    createLease_cases hregistry₁ hclosing₁ hclient₁ hcx (closeWithin sys.heldScopes)
  · exact ⟨c, { r with slots := r.slots.erase tx }, ⟨hprepared.spares, hprepared.stored⟩, hregistry,
      hclosing, .inl ⟨e, SortedMap.find?_erase_self _ _, acquire_of_failed hlt hcx hnone hcreate⟩⟩
  · let slot : Slot := { serial := (sys.registry registry).nextSerial, lease := some sys.leases.length }
    exact ⟨c, { r with slots := r.slots.insert tx slot }, ⟨hprepared.spares, hprepared.stored⟩, hregistry,
      hclosing, .inr ⟨id, options, t, slot, hmissing, hs, SortedMap.find?_insert_self _ _ _, rfl,
        acquire_of_enlisted hlt hcx hnone hcreate⟩⟩

end System

end ScopedStore
