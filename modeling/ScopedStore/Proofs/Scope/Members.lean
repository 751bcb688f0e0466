import ScopedStore.Proofs.Client.Frame
import ScopedStore.Proofs.Outcome
import ScopedStore.Proofs.Scope.Evolution

/-!
# The members of a transaction

A member of a transaction is a lease with its session and its enlistment. While it stands
(`System.Stands`) its session has an open transaction, or the lease was disposed of early. When it is told
the outcome the session ends; only a commit that succeeds makes its buffered writes visible
(`System.Stands.commit`, `System.Stands.giveUp`).
-/

namespace ScopedStore

/-- A lease that a registry has made, its session and its enlistment. -/
structure Member where
  registry : RegistryKey
  enlistment : EnlistmentKey
  lease : LeaseKey
  session : SessionRef

def Member.participant (m : Member) : Participant := .enlisted m.enlistment

/-- What is committed in a namespace of a client after the member's buffered writes were applied. -/
def Member.published (m : Member) (buffered : Pending) (client : ClientKey) (ns : Namespace)
    (stored : SortedMap Value Bytes) : SortedMap Value Bytes :=
  if client = m.session.client then Changes.written (buffered.writesOf ns).entries stored else stored

/-- The members share neither lease nor session. -/
def Member.Apart (m m' : Member) : Prop := m'.lease ≠ m.lease ∧ m'.session ≠ m.session

theorem Member.Apart.symm {m m' : Member} (h : m.Apart m') : m'.Apart m := ⟨h.1.symm, h.2.symm⟩

instance : Std.Symm Member.Apart := ⟨fun _ _ h => h.symm⟩

namespace System

def session? (sys : System) (ref : SessionRef) : Option Session :=
  (sys.client ref.client).session? ref.id

def stored (sys : System) (client : ClientKey) (ns : Namespace) : SortedMap Value Bytes :=
  (sys.client client).stored ns

def Valid (sys : System) : Prop := ∀ client, (sys.client client).Valid

/-- Every session but the touched ones stays as it is. -/
structure Spares (touched : SessionRef → Prop) (sys sys' : System) : Prop where
  clients : sys'.clients.length = sys.clients.length
  sessions : ∀ ref s, sys.session? ref = some s → ¬touched ref → sys'.session? ref = some s
  valid : sys.Valid → sys'.Valid

/-- No session and no lease but those of one member is touched; rows may be added. -/
structure Concerns (m : Member) (sys sys' : System) : Prop where
  spares : sys.Spares (· = m.session) sys'
  leases : sys.leases.length ≤ sys'.leases.length
  lease : ∀ key < sys.leases.length, key ≠ m.lease → sys'.lease key = sys.lease key
  enlistments : sys.enlistments.length ≤ sys'.enlistments.length
  enlistment : ∀ key < sys.enlistments.length,
    (sys'.enlistment key).lease = (sys.enlistment key).lease

/-- The member can still be told the outcome of the transaction. What its session has buffered is
given, unless its lease was disposed of. -/
structure Stands (sys : System) (m : Member) (buffered : Pending) : Prop where
  client_lt : m.session.client < sys.clients.length
  lease_lt : m.lease < sys.leases.length
  enlistment_lt : m.enlistment < sys.enlistments.length
  enlistment : (sys.enlistment m.enlistment).lease = m.lease
  lease : (sys.lease m.lease).session = m.session
  completed : (sys.lease m.lease).completed = false
  session : ∃ s, sys.session? m.session = some s ∧
    (((sys.lease m.lease).disposed = true ∧ s.ended = true ∧ s.transaction = none) ∨
      ((sys.lease m.lease).disposed = false ∧ ∃ t, s.transaction = some t ∧ t.pending = buffered))

def Concluded (sys : System) (m : Member) : Prop :=
  ∃ s, sys.session? m.session = some s ∧ s.ended = true ∧ s.transaction = none

variable {sys sys' sys'' : System} {touched : SessionRef → Prop} {m m' : Member}
  {buffered : Pending}

theorem client_of_eq (hclients : sys'.clients = sys.clients) (client : ClientKey) :
    sys'.client client = sys.client client := by
  unfold System.client
  rw [hclients]

theorem stored_of_eq (hclients : sys'.clients = sys.clients) (client : ClientKey) (ns : Namespace) :
    sys'.stored client ns = sys.stored client ns := by
  unfold System.stored
  rw [client_of_eq hclients]

theorem stored_setClient {client : ClientKey} (hlt : client < sys.clients.length) (c : Client)
    (client' : ClientKey) (ns : Namespace) :
    (sys.setClient client c).stored client' ns =
      if client' = client then c.stored ns else sys.stored client' ns := by
  unfold System.stored
  split
  · rename_i hclient
    rw [hclient, client_setClient_self hlt]
  · rename_i hclient
    rw [client_setClient_of_ne hclient]

theorem ite_stored {client' : ClientKey} {c : Client}
    (h : ∀ ns, c.stored ns = (sys.client client').stored ns) (client : ClientKey) (ns : Namespace) :
    (if client = client' then c.stored ns else sys.stored client ns) = sys.stored client ns := by
  split
  · rename_i hclient
    rw [hclient]
    exact h ns
  · rfl

namespace Spares

theorem refl (touched : SessionRef → Prop) (sys : System) : sys.Spares touched sys :=
  ⟨rfl, fun _ _ hs _ => hs, fun h => h⟩

theorem trans (h : sys.Spares touched sys') (h' : sys'.Spares touched sys'') :
    sys.Spares touched sys'' :=
  ⟨h'.clients.trans h.clients,
    fun ref s hs hnot => h'.sessions ref s (h.sessions ref s hs hnot) hnot,
    fun hvalid => h'.valid (h.valid hvalid)⟩

theorem mono {touched' : SessionRef → Prop} (h : sys.Spares touched sys')
    (hmono : ∀ ref, touched ref → touched' ref) : sys.Spares touched' sys' :=
  ⟨h.clients, fun ref s hs hnot => h.sessions ref s hs fun ht => hnot (hmono ref ht), h.valid⟩

theorem of_eq (hclients : sys'.clients = sys.clients) : sys.Spares touched sys' := by
  refine ⟨by rw [hclients], fun ref s hs _ => ?_, fun hvalid client => ?_⟩
  · unfold System.session? at hs ⊢
    rw [client_of_eq hclients, hs]
  · rw [client_of_eq hclients]
    exact hvalid client

theorem setClient {client : ClientKey} (hlt : client < sys.clients.length) {c : Client}
    {touchedIds : SessionId → Prop} (h : Client.Spares touchedIds (sys.client client) c)
    (htouched : ∀ id, touchedIds id → touched ⟨client, id⟩) :
    sys.Spares touched (sys.setClient client c) := by
  refine ⟨List.length_set .., fun ref s hs hnot => ?_, fun hvalid client' => ?_⟩
  · unfold System.session? at hs ⊢
    by_cases hclient : ref.client = client
    · rw [hclient, client_setClient_self hlt]
      rw [hclient] at hs
      refine h.sessions ref.id s hs fun ht => hnot ?_
      have htouched' := htouched ref.id ht
      rwa [← hclient] at htouched'
    · rw [client_setClient_of_ne hclient, hs]
  · by_cases hclient : client' = client
    · rw [hclient, client_setClient_self hlt]
      exact h.valid (hvalid client)
    · rw [client_setClient_of_ne hclient]
      exact hvalid client'

end Spares

namespace Concerns

theorem trans (h : sys.Concerns m sys') (h' : sys'.Concerns m sys'') : sys.Concerns m sys'' where
  spares := h.spares.trans h'.spares
  leases := Nat.le_trans h.leases h'.leases
  lease key hlt hne :=
    (h'.lease key (Nat.lt_of_lt_of_le hlt h.leases) hne).trans (h.lease key hlt hne)
  enlistments := Nat.le_trans h.enlistments h'.enlistments
  enlistment key hlt :=
    (h'.enlistment key (Nat.lt_of_lt_of_le hlt h.enlistments)).trans (h.enlistment key hlt)

theorem of_eq (m : Member) (hclients : sys'.clients = sys.clients)
    (hleases : sys'.leases = sys.leases) (henlistments : sys'.enlistments = sys.enlistments) :
    sys.Concerns m sys' := by
  refine ⟨.of_eq hclients, Nat.le_of_eq (by rw [hleases]), fun key _ _ => ?_,
    Nat.le_of_eq (by rw [henlistments]), fun key _ => ?_⟩
  · unfold System.lease
    rw [hleases]
  · unfold System.enlistment
    rw [henlistments]

theorem setClient {client : ClientKey} (hlt : client < sys.clients.length) {c : Client}
    {touchedIds : SessionId → Prop} (h : Client.Spares touchedIds (sys.client client) c)
    (htouched : ∀ id, touchedIds id → SessionRef.mk client id = m.session) :
    sys.Concerns m (sys.setClient client c) :=
  ⟨.setClient hlt h htouched, Nat.le_refl _, fun _ _ _ => rfl, Nat.le_refl _, fun _ _ => rfl⟩

theorem setLease (m : Member) (sys : System) (l : Lease) :
    sys.Concerns m (sys.setLease m.lease l) :=
  ⟨.of_eq rfl, Nat.le_of_eq (List.length_set ..).symm,
    fun _ _ hne => lease_setLease_of_ne hne sys l, Nat.le_refl _, fun _ _ => rfl⟩

end Concerns

theorem concerns_unregister (m : Member) (sys : System) (key : EnlistmentKey) :
    sys.Concerns m (sys.unregister key) ∧ (sys.unregister key).clients = sys.clients ∧
      (sys.unregister key).leases = sys.leases := by
  have hset (e : Enlistment) (he : e.lease = (sys.enlistment key).lease) :
      sys.Concerns m (sys.setEnlistment key e) := by
    refine ⟨.of_eq rfl, Nat.le_refl _, fun _ _ _ => rfl, Nat.le_of_eq (List.length_set ..).symm,
      fun key' hlt => ?_⟩
    by_cases hkey : key' = key
    · rw [hkey] at hlt ⊢
      rw [← he]
      exact congrArg Enlistment.lease (getD_set_self hlt e default)
    · exact congrArg Enlistment.lease (getD_set_of_ne (Ne.symm hkey) sys.enlistments e default)
  let e := sys.enlistment key
  have hunregistered := hset { e with unregistered := true, unregisterCalls := e.unregisterCalls + 1 } rfl
  unfold unregister
  dsimp only
  split
  · exact ⟨.of_eq m rfl rfl rfl, rfl, rfl⟩
  · split
    · exact ⟨hunregistered.trans (.of_eq m rfl rfl rfl), rfl, rfl⟩
    · exact ⟨hunregistered, rfl, rfl⟩

/-! ## Other members -/

theorem Concluded.spared (h : sys.Concluded m) (hspares : sys.Spares touched sys')
    (hnot : ¬touched m.session) : sys'.Concluded m := by
  obtain ⟨s, hs, hended, hclosed⟩ := h
  exact ⟨s, hspares.sessions _ s hs hnot, hended, hclosed⟩

theorem Stands.spared (h : sys.Stands m buffered) (hspares : sys.Spares touched sys')
    (hnot : ¬touched m.session) (hleases : sys.leases.length ≤ sys'.leases.length)
    (henlistments : sys.enlistments.length ≤ sys'.enlistments.length)
    (hlease : sys'.lease m.lease = sys.lease m.lease)
    (henlistment : (sys'.enlistment m.enlistment).lease = (sys.enlistment m.enlistment).lease) :
    sys'.Stands m buffered := by
  obtain ⟨s, hs, hstate⟩ := h.session
  refine ⟨?_, Nat.lt_of_lt_of_le h.lease_lt hleases, Nat.lt_of_lt_of_le h.enlistment_lt henlistments,
    henlistment.trans h.enlistment, by rw [hlease, h.lease], by rw [hlease, h.completed],
    s, hspares.sessions _ s hs hnot, by rw [hlease]; exact hstate⟩
  rw [hspares.clients]
  exact h.client_lt

theorem Stands.apart (h : sys.Stands m buffered) (hconcerns : sys.Concerns m' sys')
    (hapart : m'.Apart m) : sys'.Stands m buffered :=
  h.spared hconcerns.spares hapart.2 hconcerns.leases hconcerns.enlistments
    (hconcerns.lease _ h.lease_lt hapart.1) (hconcerns.enlistment _ h.enlistment_lt)

theorem Stands.kept (h : sys.Stands m buffered) (hspares : sys.Spares touched sys')
    (hnot : ¬touched m.session) (hleases : sys'.leases = sys.leases)
    (henlistments : sys'.enlistments = sys.enlistments) : sys'.Stands m buffered := by
  have hlease : sys'.lease m.lease = sys.lease m.lease := by
    unfold System.lease
    rw [hleases]
  have henlistment : sys'.enlistment m.enlistment = sys.enlistment m.enlistment := by
    unfold System.enlistment
    rw [henlistments]
  exact h.spared hspares hnot (Nat.le_of_eq (by rw [hleases])) (Nat.le_of_eq (by rw [henlistments]))
    hlease (by rw [henlistment])

/-! ## Disposing of the lease -/

theorem disposeLease_spec (hclient : m.session.client < sys.clients.length)
    (hlease : m.lease < sys.leases.length) (hsession : (sys.lease m.lease).session = m.session)
    {s : Session} (hs : sys.session? m.session = some s)
    (hdisposed : (sys.lease m.lease).disposed = true → s.ended = true ∧ s.transaction = none) :
    sys.Concerns m (sys.disposeLease m.lease) ∧ (sys.disposeLease m.lease).Concluded m ∧
      (sys.disposeLease m.lease).lease m.lease = { sys.lease m.lease with disposed := true } ∧
      ∀ client ns, (sys.disposeLease m.lease).stored client ns = sys.stored client ns := by
  obtain ⟨registry, e, lease, session⟩ := m
  obtain rfl : (sys.lease lease).session = session := hsession
  let l := sys.lease lease
  cases h : l.disposed with
  | true =>
    have hsame : sys.disposeLease lease = sys := by
      unfold disposeLease
      exact if_pos h
    have hrow : l = { l with disposed := true } := by rw [← h]
    rw [hsame]
    exact ⟨.of_eq _ rfl rfl rfl, ⟨s, hs, hdisposed h⟩, hrow, fun _ _ => rfl⟩
  | false =>
    let sys₁ := sys.setLease lease { l with disposed := true }
    let c := (sys.client l.session.client).endSession l.session.id
    have hdisposes : sys.disposeLease lease = sys₁.setClient l.session.client c := by
      unfold disposeLease
      exact if_neg (by rw [h]; exact Bool.false_ne_true)
    obtain ⟨hspares, hstored, hended⟩ := Client.endSession_spares hs
    have hset : sys.Concerns ⟨registry, e, lease, l.session⟩ sys₁ := .setLease ⟨registry, e, lease, l.session⟩ sys _
    have hclient₁ : l.session.client < sys₁.clients.length := hclient
    have hsetClient : sys₁.Concerns ⟨registry, e, lease, l.session⟩ (sys₁.setClient l.session.client c) :=
      .setClient hclient₁ hspares fun id hid => by rw [hid]
    rw [hdisposes]
    refine ⟨hset.trans hsetClient, ⟨{ s with ended := true, transaction := none }, ?_, rfl, rfl⟩,
      lease_setLease_self hlease _, fun client ns => ?_⟩
    · unfold System.session?
      rw [client_setClient_self hclient₁]
      exact hended
    · rw [stored_setClient hclient₁]
      exact ite_stored hstored client ns

/-! ## Telling the outcome -/

theorem settleLease_of_open {lease : LeaseKey} (h : (sys.lease lease).completed = false)
    (act : Client → SessionId → Except StoreError Unit × Client) :
    let session := (sys.lease lease).session
    let called := act (sys.client session.client) session.id
    sys.settleLease lease act = (called.1.mapError .store,
      (sys.setLease lease { sys.lease lease with completed := true }).setClient session.client
        called.2) := by
  intro session called
  unfold settleLease
  refine (if_neg ?_).trans ?_
  · rw [h]
    exact Bool.false_ne_true
  · refine onClient_eq ?_
    rfl

theorem Stands.settle (h : sys.Stands m buffered)
    {act : Client → SessionId → Except StoreError Unit × Client}
    (hspares : Client.Spares (· = m.session.id) (sys.client m.session.client)
      (act (sys.client m.session.client) m.session.id).2)
    (hretains : ∀ s, sys.session? m.session = some s →
      (act (sys.client m.session.client) m.session.id).2.Retains m.session.id s) :
    let called := act (sys.client m.session.client) m.session.id
    let settled := sys.settleLease m.lease act
    let sys' := settled.2.disposeLease m.lease
    settled.1 = called.1.mapError .store ∧ sys.Concerns m sys' ∧ sys'.Concluded m ∧
      ∀ client ns, sys'.stored client ns =
        if client = m.session.client then called.2.stored ns else sys.stored client ns := by
  obtain ⟨registry, e, lease, session⟩ := m
  obtain rfl : (sys.lease lease).session = session := h.lease
  intro called settled sys'
  let l := sys.lease lease
  let sys₁ := sys.setLease lease { l with completed := true }
  let sys₂ := sys₁.setClient l.session.client called.2
  have hsettled : settled = (called.1.mapError .store, sys₂) := settleLease_of_open h.completed act
  have hclient₁ : l.session.client < sys₁.clients.length := h.client_lt
  have hset : sys.Concerns ⟨registry, e, lease, l.session⟩ sys₁ := .setLease ⟨registry, e, lease, l.session⟩ sys _
  have hsetClient : sys₁.Concerns ⟨registry, e, lease, l.session⟩ sys₂ :=
    .setClient hclient₁ hspares fun id hid => by rw [hid]
  have hconcerns := hset.trans hsetClient
  have hrow : sys₂.lease lease = { l with completed := true } := lease_setLease_self h.lease_lt _
  obtain ⟨s, hs, hstate⟩ := h.session
  obtain ⟨s', hs', hended, hclosed⟩ := hretains s hs
  have hs₂ : sys₂.session? l.session = some s' := by
    unfold System.session?
    rw [client_setClient_self hclient₁]
    exact hs'
  have hdisposed (hd : (sys₂.lease lease).disposed = true) :
      s'.ended = true ∧ s'.transaction = none := by
    rw [hrow] at hd
    rcases hstate with ⟨-, hend, hnone⟩ | ⟨hlive, -⟩
    · exact ⟨hended.trans hend, hclosed hnone⟩
    · rw [hlive] at hd
      cases hd
  have hclient₂ : l.session.client < sys₂.clients.length := by
    rw [hconcerns.spares.clients]
    exact h.client_lt
  obtain ⟨hdisposes, hconcluded, -, hstored⟩ := disposeLease_spec hclient₂
    (Nat.lt_of_lt_of_le h.lease_lt hconcerns.leases) (by rw [hrow]) hs₂ hdisposed
  have hsys' : sys' = sys₂.disposeLease lease := by
    show settled.2.disposeLease lease = _
    rw [hsettled]
  rw [hsettled, hsys']
  refine ⟨rfl, hconcerns.trans hdisposes, hconcluded, fun client ns => ?_⟩
  rw [hstored]
  exact stored_setClient hclient₁ _ client ns

theorem Stands.unregister (h : sys.Stands m buffered) :
    (sys.unregister m.enlistment).Stands m buffered ∧
      (sys.unregister m.enlistment).client = sys.client ∧
      sys.Concerns m (sys.unregister m.enlistment) := by
  obtain ⟨hconcerns, hclients, hleases⟩ := concerns_unregister m sys m.enlistment
  have hspares : sys.Spares (fun _ => False) (sys.unregister m.enlistment) := .of_eq hclients
  have hlease : (sys.unregister m.enlistment).lease m.lease = sys.lease m.lease := by
    unfold System.lease
    rw [hleases]
  exact ⟨h.spared hspares id hconcerns.leases hconcerns.enlistments hlease
    (hconcerns.enlistment _ h.enlistment_lt), funext (client_of_eq hclients), hconcerns⟩

theorem Stands.tell (h : sys.Stands m buffered)
    {act : Client → SessionId → Except StoreError Unit × Client}
    (hspares : Client.Spares (· = m.session.id) (sys.client m.session.client)
      (act (sys.client m.session.client) m.session.id).2)
    (hretains : ∀ s, sys.session? m.session = some s →
      (act (sys.client m.session.client) m.session.id).2.Retains m.session.id s) :
    let called := act (sys.client m.session.client) m.session.id
    let lease := (sys.enlistment m.enlistment).lease
    let settled := (sys.unregister m.enlistment).settleLease lease act
    let sys' := settled.2.disposeLease lease
    settled.1 = called.1.mapError .store ∧ sys.Concerns m sys' ∧ sys'.Concluded m ∧
      ∀ client ns, sys'.stored client ns =
        if client = m.session.client then called.2.stored ns else sys.stored client ns := by
  intro called lease settled sys'
  obtain ⟨hstands, hclient, hunregisters⟩ := h.unregister
  have hlease : lease = m.lease := h.enlistment
  have hspares' : Client.Spares (· = m.session.id)
      ((sys.unregister m.enlistment).client m.session.client)
      (act ((sys.unregister m.enlistment).client m.session.client) m.session.id).2 := by
    rw [hclient]
    exact hspares
  have hsettle := hstands.settle hspares' fun s hs => by
    unfold System.session? at hs
    rw [hclient] at hs ⊢
    exact hretains s hs
  rw [hclient, ← hlease] at hsettle
  obtain ⟨houtcome, hconcerns, hconcluded, hstored⟩ := hsettle
  refine ⟨houtcome, hunregisters.trans hconcerns, hconcluded, fun client ns => ?_⟩
  rw [hstored]
  unfold System.stored
  rw [hclient]

/-- A member that is told to commit makes its buffered writes visible if it succeeds, and nothing
otherwise. -/
theorem Stands.commit (h : sys.Stands m buffered) (hvalid : sys.Valid) :
    let told := sys.notifyEnlistment m.enlistment .commit
    sys.Concerns m told.2 ∧ told.2.Concluded m ∧
      (told.1 = .ok () → ∀ client ns,
        told.2.stored client ns = m.published buffered client ns (sys.stored client ns)) ∧
      (told.1 ≠ .ok () → ∀ client ns, told.2.stored client ns = sys.stored client ns) := by
  intro told
  obtain ⟨s, hs, hstate⟩ := h.session
  obtain ⟨hspares, hretains, hcommitted, hrefused⟩ :=
    Client.commitTransaction_spares (hvalid m.session.client) hs
  obtain ⟨houtcome, hconcerns, hconcluded, hstored⟩ := h.tell hspares fun s' hs' => by
    rw [hs] at hs'
    cases hs'
    exact hretains
  change told.1 = _ at houtcome
  have hok_iff : told.1 = .ok () ↔
      ((sys.client m.session.client).commitTransaction m.session.id).1 = .ok () := by
    rw [houtcome]
    exact mapError_eq_ok
  refine ⟨hconcerns, hconcluded, fun hok client ns => (hstored client ns).trans ?_,
    fun hfailed client ns => (hstored client ns).trans ?_⟩
  · obtain ⟨t, ht, hwritten⟩ := hcommitted (hok_iff.1 hok)
    have hbuffered : t.pending = buffered := by
      rcases hstate with ⟨-, -, hnone⟩ | ⟨-, t', ht', hpending⟩
      · rw [hnone] at ht
        cases ht
      · rw [ht'] at ht
        cases ht
        exact hpending
    unfold Member.published
    split
    · rename_i hclient
      rw [hwritten, hbuffered, hclient]
      rfl
    · rfl
  · exact ite_stored (hrefused fun hok => hfailed (hok_iff.2 hok)) client ns

/-- A member that is told to roll back, or that the outcome is in doubt, makes nothing visible. -/
theorem Stands.giveUp (h : sys.Stands m buffered) {phase : Phase}
    (hphase : phase = .rollback ∨ phase = .inDoubt) :
    let told := sys.notifyEnlistment m.enlistment phase
    sys.Concerns m told.2 ∧ told.2.Concluded m ∧
      ∀ client ns, told.2.stored client ns = sys.stored client ns := by
  obtain ⟨s, hs, -⟩ := h.session
  obtain ⟨hspares, hsame, hretains⟩ := Client.abortTransaction_spares hs
  obtain ⟨-, hconcerns, hconcluded, hstored⟩ := h.tell hspares fun s' hs' => by
    rw [hs] at hs'
    cases hs'
    exact hretains
  rcases hphase with rfl | rfl
  · exact ⟨hconcerns, hconcluded, fun client ns => (hstored client ns).trans (ite_stored hsame _ _)⟩
  · exact ⟨hconcerns, hconcluded, fun client ns => (hstored client ns).trans (ite_stored hsame _ _)⟩

end System

end ScopedStore
