import Mathlib.Data.List.Pairwise
import ScopedStore.Proofs.Scope.Acquisition
import ScopedStore.Proofs.Scope.Ending

/-!
# Work in a transaction

Facades work in a transaction with the sessions that their registries enlist in it, while faults are armed
and registries may be told to remove their leases. All along, what the sessions have buffered is what the
facades were told was accepted, and nothing is committed (`System.Joint`); every piece of work keeps this
(`System.Joint.work`).
-/

namespace ScopedStore

/-- Something that happens while a transaction is open. -/
inductive Work where
  /-- A request through a facade of the registry's client. -/
  | request (registry : RegistryKey) (config : Config) (r : Request)
  /-- The registry is told to remove its lease. -/
  | remove (registry : RegistryKey)
  | arm (client : ClientKey) (kind : FaultKind) (n : Nat)
  /-- A joined scope is abandoned. -/
  | doom (reason : String)
  | wait (seconds : Nat)

/-- Changes that were accepted in a transaction, and the session that carried them out. -/
structure Accepted where
  session : SessionRef
  ns : Namespace
  changes : Changes

def bufferedBy (accepted : List Accepted) (session : SessionRef) : Pending :=
  accepted.foldl (fun p a => if a.session = session then p.record a.ns a.changes else p) ∅

/-- The changes of a session in a namespace, one after the other. -/
def changesIn (accepted : List Accepted) (session : SessionRef) (ns : Namespace) : Changes :=
  accepted.flatMap fun a => if a.session = session ∧ a.ns = ns then a.changes else []

/-- The registries, clients and values of the work are there and in order. -/
def Work.Fits (sys : System) : Work → Prop
  | .request registry _ r => registry < sys.registries.length ∧ r.Ordered
  | .remove registry => registry < sys.registries.length
  | .arm client _ _ => client < sys.clients.length
  | .doom _ | .wait _ => True

def Config.inside (config : Config) (tx : TxKey) : Context := { config := config, transaction := some tx }

namespace System

def work (tx : TxKey) (sys : System) : Work → System
  | .request registry config r =>
    (sys.requestThrough (sys.registry registry).client (.byRegistry registry) (config.inside tx) r).2
  | .remove registry => (sys.removeLease registry tx).2
  | .arm client kind n => sys.setClient client ((sys.client client).after (.arm kind n))
  | .doom reason => sys.doom tx reason
  | .wait seconds => { sys with clock := sys.clock + seconds }

def acceptedIn (tx : TxKey) (sys : System) : Work → List Accepted
  | .request registry config r =>
    match sys.acquire registry (config.inside tx) with
    | (.ok lease, sys) =>
      let session := (sys.lease lease).session
      let changes := (sys.client session.client).changesOf session.id r
      (changes.map fun (ns, changes) => ⟨session, ns, changes⟩).toList
    | (.error _, _) => []
  | .remove _ | .arm _ _ _ | .doom _ | .wait _ => []

def workAll (tx : TxKey) (sys : System) (works : List Work) : System := works.foldl (work tx) sys

def acceptedAll (tx : TxKey) : System → List Work → List Accepted
  | _, [] => []
  | sys, w :: rest => sys.acceptedIn tx w ++ acceptedAll tx (sys.work tx w) rest

/-- The lease that the registry has for the transaction, if any, is that of a member and is not disposed
of. -/
structure Lends (sys : System) (tx : TxKey) (members : List Member) (registry : RegistryKey) :
    Prop where
  client_lt : (sys.registry registry).client < sys.clients.length
  closing : (sys.registry registry).closing = none
  slot : ∀ slot, (sys.registry registry).slots.find? tx = some slot →
    ∃ m ∈ members, m.registry = registry ∧ slot.lease = some m.lease ∧
      m.session.client = (sys.registry registry).client ∧ (sys.lease m.lease).disposed = false

/-- The transaction is open, and its participants are the members. -/
structure Gathers (sys : System) (tx : TxKey) (members : List Member) : Prop where
  tx_lt : tx < sys.transactions.length
  isOpen : (sys.transaction tx).isOpen = true
  participants : (sys.transaction tx).participants = members.map Member.participant

/-- The state of a transaction in which work has been accepted since the start, and nothing is
committed. -/
structure Joint (start : System) (tx : TxKey) (accepted : List Accepted) (members : List Member)
    (sys : System) : Prop where
  gathers : sys.Gathers tx members
  standing : sys.Standing members fun m => bufferedBy accepted m.session
  lends : ∀ registry < start.registries.length, sys.Lends tx members registry
  registries : sys.registries.length = start.registries.length
  clients : sys.clients.length = start.clients.length
  stored : ∀ client ns, sys.stored client ns = start.stored client ns
  owned : ∀ a ∈ accepted, ∃ m ∈ members, m.session = a.session
  net : ∀ m ∈ members, (bufferedBy accepted m.session).NetOf (changesIn accepted m.session)
    (start.stored m.session.client)

variable {start sys sys' : System} {tx : TxKey} {accepted : List Accepted} {m m' : Member}
  {members members' : List Member} {registry : RegistryKey} {buffered buffered' : Member → Pending}

/-! ## Members among others -/

theorem Standing.apart_of_ne (h : sys.Standing members buffered) (hm : m ∈ members)
    (hm' : m' ∈ members) (hne : m' ≠ m) : m.Apart m' := h.apart.forall hm hm' hne.symm

theorem Standing.update (h : sys.Standing members buffered) (hm : m ∈ members)
    (hconcerns : sys.Concerns m sys') (hstands : sys'.Stands m (buffered' m))
    (hsame : ∀ m' ∈ members, m' ≠ m → buffered' m' = buffered m') :
    sys'.Standing members buffered' := by
  refine ⟨hconcerns.spares.valid h.valid, fun m' hm' => ?_, h.apart⟩
  by_cases hne : m' = m
  · rw [hne]
    exact hstands
  · rw [hsame m' hm' hne]
    exact (h.stands m' hm').apart hconcerns (h.apart_of_ne hm hm' hne)

theorem Standing.append (h : sys.Standing members buffered) (hconcerns : sys.Concerns m sys')
    (hapart : ∀ m' ∈ members, m.Apart m') (hstands : sys'.Stands m (buffered m)) :
    sys'.Standing (members ++ [m]) buffered := by
  refine ⟨hconcerns.spares.valid h.valid, fun m' hm' => ?_, ?_⟩
  · rcases List.mem_append.1 hm' with hm' | hm'
    · exact (h.stands m' hm').apart hconcerns (hapart m' hm')
    · rw [List.mem_singleton.1 hm']
      exact hstands
  · refine List.pairwise_append.2 ⟨h.apart, List.pairwise_singleton _ _, fun m' hm' m'' hm'' => ?_⟩
    rw [List.mem_singleton.1 hm'']
    exact (hapart m' hm').symm

theorem Lends.kept (h : sys.Lends tx members registry)
    (hregistry : sys'.registry registry = sys.registry registry)
    (hclients : sys'.clients.length = sys.clients.length) (hmembers : ∀ m ∈ members, m ∈ members')
    (hleases : ∀ m ∈ members, m.registry = registry →
      (sys'.lease m.lease).disposed = (sys.lease m.lease).disposed) :
    sys'.Lends tx members' registry := by
  refine ⟨by rw [hregistry, hclients]; exact h.client_lt, by rw [hregistry]; exact h.closing,
    fun slot hslot => ?_⟩
  rw [hregistry] at hslot ⊢
  obtain ⟨m, hm, howner, hlease, hclient, hlive⟩ := h.slot slot hslot
  exact ⟨m, hmembers m hm, howner, hlease, hclient, by rw [hleases m hm howner, hlive]⟩

theorem Gathers.of_eq (h : sys.Gathers tx members) (heq : sys'.transactions = sys.transactions) :
    sys'.Gathers tx members := by
  have hrow : sys'.transaction tx = sys.transaction tx := by
    unfold System.transaction
    rw [heq]
  exact ⟨by rw [heq]; exact h.tx_lt, by rw [hrow]; exact h.isOpen, by rw [hrow]; exact h.participants⟩

/-! ## Work that reaches no session -/

theorem Joint.kept (h : Joint start tx accepted members sys) (hgathers : sys'.Gathers tx members)
    (hspares : sys.Spares (fun _ => False) sys') (hleases : sys'.leases = sys.leases)
    (henlistments : sys'.enlistments = sys.enlistments) (hregistries : sys'.registries = sys.registries)
    (hstored : ∀ client ns, sys'.stored client ns = sys.stored client ns) :
    Joint start tx accepted members sys' := by
  refine ⟨hgathers, h.standing.kept hspares hleases henlistments, fun registry hlt => ?_,
    (congrArg List.length hregistries).trans h.registries, hspares.clients.trans h.clients,
    fun client ns => (hstored client ns).trans (h.stored client ns), h.owned, h.net⟩
  refine (h.lends registry hlt).kept ?_ hspares.clients (fun _ hm => hm) fun m _ _ => ?_
  · unfold System.registry
    rw [hregistries]
  · unfold System.lease
    rw [hleases]

theorem Joint.wait (h : Joint start tx accepted members sys) (seconds : Nat) :
    Joint start tx accepted members { sys with clock := sys.clock + seconds } :=
  h.kept (h.gathers.of_eq rfl) (.of_eq rfl) rfl rfl rfl fun _ _ => rfl

theorem Joint.doom (h : Joint start tx accepted members sys) (reason : String) :
    Joint start tx accepted members (sys.doom tx reason) := by
  have hrow : (sys.doom tx reason).transaction tx = (sys.transaction tx).doom reason :=
    transaction_setTransaction_self h.gathers.tx_lt _
  have hgathers : (sys.doom tx reason).Gathers tx members := by
    refine ⟨?_, by rw [hrow]; exact h.gathers.isOpen, by rw [hrow]; exact h.gathers.participants⟩
    show tx < (sys.transactions.set tx _).length
    rw [List.length_set]
    exact h.gathers.tx_lt
  exact h.kept hgathers (.of_eq rfl) rfl rfl rfl fun _ _ => rfl

theorem Joint.arm (h : Joint start tx accepted members sys) {client : ClientKey}
    (hclient : client < sys.clients.length) (kind : FaultKind) (n : Nat) :
    Joint start tx accepted members
      (sys.setClient client ((sys.client client).after (.arm kind n))) := by
  have harmed : Client.Spares (fun _ => False) (sys.client client)
      ((sys.client client).after (.arm kind n)) := .of_eq rfl fun hc => hc.after trivial
  refine h.kept (h.gathers.of_eq rfl) (.setClient hclient harmed fun _ hf => hf) rfl rfl rfl
    fun client' ns => ?_
  rw [stored_setClient hclient]
  exact ite_stored (fun _ => rfl) client' ns

/-! ## Removing a lease -/

theorem Joint.setRegistry (h : Joint start tx accepted members sys)
    (hregistry : registry < start.registries.length) {r : Registry}
    (hclient : r.client = (sys.registry registry).client) (hclosing : r.closing = none)
    (hnone : r.slots.find? tx = none) :
    Joint start tx accepted members (sys.setRegistry registry r) := by
  have hspares : sys.Spares (fun _ => False) (sys.setRegistry registry r) := .of_eq rfl
  refine ⟨h.gathers.of_eq rfl, h.standing.kept hspares rfl rfl, fun registry' hlt => ?_, ?_, h.clients,
    h.stored, h.owned, h.net⟩
  · by_cases hsame : registry' = registry
    · have hself : (sys.setRegistry registry r).registry registry = r :=
        registry_setRegistry_self (by rw [h.registries]; exact hregistry) r
      rw [hsame]
      refine ⟨?_, by rw [hself, hclosing], fun slot hslot => ?_⟩
      · rw [hself, hclient]
        exact (h.lends registry hregistry).client_lt
      · rw [hself, hnone] at hslot
        cases hslot
    · exact (h.lends registry' hlt).kept (registry_setRegistry_of_ne hsame sys r) rfl (fun _ hm => hm)
        fun _ _ _ => rfl
  · rw [← h.registries]
    exact List.length_set ..

theorem Stands.disposed {b : Pending} (h : sys.Stands m b) :
    sys.Concerns m (sys.disposeLease m.lease) ∧ (sys.disposeLease m.lease).Stands m b ∧
      ∀ client ns, (sys.disposeLease m.lease).stored client ns = sys.stored client ns := by
  obtain ⟨s, hs, hstate⟩ := h.session
  obtain ⟨hconcerns, ⟨s', hs', hended, hclosed⟩, hrow, hstored⟩ :=
    disposeLease_spec h.client_lt h.lease_lt h.lease hs fun hdisposed => by
      rcases hstate with ⟨-, hended⟩ | ⟨hlive, -⟩
      · exact hended
      · rw [hdisposed] at hlive
        cases hlive
  refine ⟨hconcerns, ⟨by rw [hconcerns.spares.clients]; exact h.client_lt,
    Nat.lt_of_lt_of_le h.lease_lt hconcerns.leases,
    Nat.lt_of_lt_of_le h.enlistment_lt hconcerns.enlistments,
    (hconcerns.enlistment _ h.enlistment_lt).trans h.enlistment, by rw [hrow, ← h.lease],
    by rw [hrow, ← h.completed], s', hs', .inl ⟨by rw [hrow], hended, hclosed⟩⟩, hstored⟩

/-- A member's lease is disposed of, after its registry has let go of it. -/
theorem Joint.dispose (h : Joint start tx accepted members sys) (hm : m ∈ members)
    (hgone : (sys.registry m.registry).slots.find? tx = none) :
    Joint start tx accepted members (sys.disposeLease m.lease) := by
  obtain ⟨hconcerns, hstands, hstored⟩ := (h.standing.stands m hm).disposed
  have hkeeps := keeps_disposeLease sys m.lease
  have hregistries : (sys.disposeLease m.lease).registries = sys.registries := by
    unfold disposeLease
    dsimp only
    split <;> rfl
  refine ⟨h.gathers.of_eq hkeeps.transactions, h.standing.update hm hconcerns hstands fun _ _ _ => rfl,
    fun registry hlt => ?_, by rw [hregistries, h.registries], hconcerns.spares.clients.trans h.clients,
    fun client ns => (hstored client ns).trans (h.stored client ns), h.owned, h.net⟩
  have hregistry : (sys.disposeLease m.lease).registry registry = sys.registry registry := by
    unfold System.registry
    rw [hregistries]
  have hlends := h.lends registry hlt
  by_cases howner : m.registry = registry
  · rw [howner] at hgone
    refine ⟨by rw [hregistry, hconcerns.spares.clients]; exact hlends.client_lt,
      by rw [hregistry]; exact hlends.closing, fun slot hslot => ?_⟩
    rw [hregistry, hgone] at hslot
    cases hslot
  · refine hlends.kept hregistry hconcerns.spares.clients (fun _ hm => hm) fun m' hm' howner' => ?_
    have hne : m' ≠ m := fun heq => howner (by rw [← heq, howner'])
    have hapart := h.standing.apart_of_ne hm hm' hne
    rw [hconcerns.lease _ (h.standing.stands m' hm').lease_lt hapart.1]

theorem Joint.remove (h : Joint start tx accepted members sys)
    (hregistry : registry < start.registries.length) :
    Joint start tx accepted members (sys.removeLease registry tx).2 := by
  have hlends := h.lends registry hregistry
  let r := sys.registry registry
  have hdetached : Joint start tx accepted members (sys.detach registry tx) :=
    h.setRegistry hregistry rfl hlends.closing (SortedMap.find?_erase_self r.slots tx)
  have hgone : ((sys.detach registry tx).registry registry).slots.find? tx = none := by
    have hself : (sys.detach registry tx).registry registry = { r with slots := r.slots.erase tx } :=
      registry_setRegistry_self (by rw [h.registries]; exact hregistry) _
    rw [hself]
    exact SortedMap.find?_erase_self r.slots tx
  unfold removeLease lookup
  cases hfind : (sys.registry registry).slots.find? tx with
  | none => exact hdetached
  | some slot =>
    obtain ⟨m, hm, rfl, hlease, -⟩ := hlends.slot slot hfind
    rw [Option.bind_some, hlease]
    exact hdetached.dispose hm hgone

/-! ## Enlisting a lease -/

/-- What is accepted belongs to sessions that are there, so a new one has buffered nothing. -/
theorem Joint.none_accepted (h : Joint start tx accepted members sys) {session : SessionRef}
    (hnone : sys.session? session = none) : ∀ a ∈ accepted, a.session ≠ session := by
  intro a ha hsession
  obtain ⟨m, hm, howner⟩ := h.owned a ha
  obtain ⟨s, hs, -⟩ := (h.standing.stands m hm).session
  rw [howner, hsession, hnone] at hs
  cases hs

theorem bufferedBy_append_of_ne {added : List Accepted} {session : SessionRef}
    (h : ∀ a ∈ added, a.session ≠ session) (accepted : List Accepted) :
    bufferedBy (accepted ++ added) session = bufferedBy accepted session := by
  unfold bufferedBy
  rw [List.foldl_append]
  generalize accepted.foldl _ (∅ : Pending) = p
  induction added with
  | nil => rfl
  | cons a rest ih =>
    rw [List.foldl_cons, if_neg (h a List.mem_cons_self)]
    exact ih fun a ha => h a (List.mem_cons_of_mem _ ha)

theorem Joint.bufferedBy_of_new (h : Joint start tx accepted members sys) {session : SessionRef}
    (hnone : sys.session? session = none) : bufferedBy accepted session = ∅ :=
  bufferedBy_append_of_ne (h.none_accepted hnone) []

theorem changesIn_of_none {session : SessionRef} (h : ∀ a ∈ accepted, a.session ≠ session) :
    changesIn accepted session = fun _ => [] := by
  funext ns
  refine List.flatMap_eq_nil_iff.2 fun a ha => ?_
  exact if_neg fun hsame => h a ha hsame.1

section Enlisting

variable {client : ClientKey} {id : SessionId} {c : Client}

theorem concerns_enlisted (hclient : client < sys.clients.length) (hprepared : sys.Prepared client c)
    (registry : RegistryKey) (tx : TxKey) :
    sys.Concerns ⟨registry, sys.enlistments.length, sys.leases.length, ⟨client, id⟩⟩
      (sys.enlisted registry tx ⟨client, id⟩ c) := by
  have hspares : sys.Spares (fun _ => False) (sys.setClient client c) :=
    .setClient hclient hprepared.spares fun _ hf => hf
  refine ⟨⟨hspares.clients, fun ref s hs _ => hspares.sessions ref s hs fun hf => hf, hspares.valid⟩,
    ?_, fun key hlt _ => ?_, ?_, fun key hlt => ?_⟩
  · show sys.leases.length ≤ (sys.leases ++ [_]).length
    rw [List.length_append]
    exact Nat.le_add_right _ _
  · exact getD_append_of_lt hlt _ _
  · show sys.enlistments.length ≤ (sys.enlistments ++ [_]).length
    rw [List.length_append]
    exact Nat.le_add_right _ _
  · exact congrArg Enlistment.lease (getD_append_of_lt hlt _ _)

theorem stands_enlisted (hclient : client < sys.clients.length) {options : SessionOptions}
    {t : TransactionOptions}
    (hs : c.session? id = some { options := options, transaction := some { options := t } })
    (registry : RegistryKey) (tx : TxKey) :
    (sys.enlisted registry tx ⟨client, id⟩ c).Stands
      ⟨registry, sys.enlistments.length, sys.leases.length, ⟨client, id⟩⟩ ∅ := by
  have hlease := lease_enlisted sys registry tx ⟨client, id⟩ c
  have henlistment := enlistment_enlisted sys registry tx ⟨client, id⟩ c
  have hlt {α : Type} (l : List α) (x : α) : l.length < (l ++ [x]).length := by
    rw [List.length_append]
    exact Nat.lt_succ_self _
  refine ⟨?_, hlt _ _, hlt _ _, henlistment, by rw [hlease], by rw [hlease],
    { options := options, transaction := some { options := t } }, ?_,
    .inr ⟨by rw [hlease], { options := t }, rfl, rfl⟩⟩
  · show client < (sys.clients.set client c).length
    rw [List.length_set]
    exact hclient
  · show ((sys.setClient client c).client client).session? id = _
    rw [client_setClient_self hclient, hs]

theorem Gathers.enlisted (h : sys.Gathers tx members) (m : Member)
    (henlistment : m.enlistment = sys.enlistments.length) :
    (sys.enlisted registry tx m.session c).Gathers tx (members ++ [m]) := by
  let t := sys.transaction tx
  have hrow : (sys.enlisted registry tx m.session c).transaction tx =
      { t with participants := t.participants ++ [.enlisted sys.enlistments.length] } :=
    transaction_setTransaction_self h.tx_lt _
  refine ⟨?_, by rw [hrow]; exact h.isOpen, ?_⟩
  · show tx < (sys.transactions.set tx _).length
    rw [List.length_set]
    exact h.tx_lt
  · rw [hrow, List.map_append, ← h.participants, ← henlistment]
    rfl

theorem Joint.standing_enlisted (h : Joint start tx accepted members sys)
    (hclient : client < sys.clients.length) (hprepared : sys.Prepared client c)
    (hnone : (sys.client client).session? id = none) {options : SessionOptions} {t : TransactionOptions}
    (hs : c.session? id = some { options := options, transaction := some { options := t } })
    (registry : RegistryKey) (r : Registry) :
    let m : Member := ⟨registry, sys.enlistments.length, sys.leases.length, ⟨client, id⟩⟩
    let sys' := (sys.enlisted registry tx ⟨client, id⟩ c).setRegistry registry r
    sys.Concerns m sys' ∧ sys'.Standing (members ++ [m]) fun m => bufferedBy accepted m.session := by
  intro m sys'
  have hmissing : sys.session? m.session = none := hnone
  have hconcerns : sys.Concerns m sys' := (concerns_enlisted hclient hprepared registry tx).trans
    (.of_eq m rfl rfl rfl)
  have hspares : (sys.enlisted registry tx m.session c).Spares (fun _ => False) sys' := .of_eq rfl
  have hstands : sys'.Stands m (bufferedBy accepted m.session) := by
    rw [h.bufferedBy_of_new hmissing]
    exact (stands_enlisted hclient hs registry tx).kept hspares (fun hf => hf) rfl rfl
  have hapart (m' : Member) (hm' : m' ∈ members) : m.Apart m' := by
    have hstands' := h.standing.stands m' hm'
    refine ⟨Nat.ne_of_lt hstands'.lease_lt, fun hsession => ?_⟩
    obtain ⟨s, hs, -⟩ := hstands'.session
    rw [hsession, hmissing] at hs
    cases hs
  exact ⟨hconcerns, h.standing.append hconcerns hapart hstands⟩

theorem Joint.enlisted (h : Joint start tx accepted members sys)
    (hregistry : registry < start.registries.length) (hclient : (sys.registry registry).client = client)
    (hprepared : sys.Prepared client c) (hnone : (sys.client client).session? id = none)
    {options : SessionOptions} {t : TransactionOptions}
    (hs : c.session? id = some { options := options, transaction := some { options := t } })
    {r : Registry} {slot : Slot} (hr : r.client = client) (hclosing : r.closing = none)
    (hslot : r.slots.find? tx = some slot) (hlease : slot.lease = some sys.leases.length) :
    let m : Member := ⟨registry, sys.enlistments.length, sys.leases.length, ⟨client, id⟩⟩
    let sys' := (sys.enlisted registry tx ⟨client, id⟩ c).setRegistry registry r
    Joint start tx accepted (members ++ [m]) sys' := by
  intro m sys'
  have hlt : client < sys.clients.length := by
    rw [← hclient]
    exact (h.lends registry hregistry).client_lt
  have hmissing : sys.session? m.session = none := hnone
  obtain ⟨hconcerns, hstanding⟩ := h.standing_enlisted hlt hprepared hnone hs registry r
  have hself : sys'.registry registry = r :=
    registry_setRegistry_self (by rw [← h.registries] at hregistry; exact hregistry) r
  have hgathers : (sys.enlisted registry tx m.session c).Gathers tx (members ++ [m]) :=
    h.gathers.enlisted m rfl
  refine ⟨hgathers.of_eq rfl, hstanding, fun registry' hlt' => ?_, ?_,
    hconcerns.spares.clients.trans h.clients, fun client' ns => ?_, fun a ha => ?_, fun m' hm' => ?_⟩
  · by_cases hsame : registry' = registry
    · rw [hsame]
      refine ⟨?_, by rw [hself, hclosing], fun slot' hslot' => ?_⟩
      · rw [hself, hr, hconcerns.spares.clients]
        exact hlt
      · rw [hself, hslot] at hslot'
        cases hslot'
        refine ⟨m, List.mem_append_right _ (List.mem_singleton_self m), rfl, hlease, ?_, ?_⟩
        · rw [hself, hr]
        · exact congrArg Lease.disposed (lease_enlisted sys registry tx ⟨client, id⟩ c)
    · refine (h.lends registry' hlt').kept (registry_setRegistry_of_ne hsame _ r)
        hconcerns.spares.clients (fun _ hm => List.mem_append_left _ hm) fun m' hm' _ => ?_
      have hlease_lt := (h.standing.stands m' hm').lease_lt
      rw [hconcerns.lease _ hlease_lt (Nat.ne_of_lt hlease_lt)]
  · rw [← h.registries]
    exact List.length_set ..
  · have hstored : sys'.stored client' ns = (sys.setClient client c).stored client' ns := rfl
    rw [hstored, stored_setClient hlt, ← h.stored]
    exact ite_stored hprepared.stored client' ns
  · obtain ⟨m', hm', howner⟩ := h.owned a ha
    exact ⟨m', List.mem_append_left _ hm', howner⟩
  · rcases List.mem_append.1 hm' with hm' | hm'
    · exact h.net m' hm'
    · rw [List.mem_singleton.1 hm', h.bufferedBy_of_new hmissing,
        changesIn_of_none (h.none_accepted hmissing)]
      exact Pending.netOf_empty _

end Enlisting

/-- Acquiring a lease keeps what has been accepted. The lease is that of a member, and its session is
open. -/
theorem Joint.acquire (h : Joint start tx accepted members sys)
    (hregistry : registry < start.registries.length) {cx : Context} (hcx : cx.transaction = some tx) :
    let acquired := sys.acquire registry cx
    ∃ members', Joint start tx accepted members' acquired.2 ∧
      ((∃ e, acquired.1 = .error e) ∨
        ∃ m ∈ members', acquired.1 = .ok m.lease ∧
          m.session.client = (sys.registry registry).client ∧
          (acquired.2.lease m.lease).disposed = false) := by
  intro acquired
  have hlends := h.lends registry hregistry
  have hlt : registry < sys.registries.length := by
    rw [h.registries]
    exact hregistry
  cases hfind : (sys.registry registry).slots.find? tx with
  | some slot =>
    obtain ⟨m, hm, -, hlease, hclient, hlive⟩ := hlends.slot slot hfind
    have hchecked : sys.checkLease tx m.lease = .ok m.lease :=
      checkLease_of_active (h.standing.stands m hm).completed
    have hacquired : acquired = (.ok m.lease, sys) := by
      rw [← hchecked]
      exact acquire_of_held hcx hfind hlease
    rw [hacquired]
    exact ⟨members, h, .inr ⟨m, hm, rfl, hclient, hlive⟩⟩
  | none =>
    obtain ⟨c, r, hprepared, hclient, hclosing, hcases⟩ :=
      acquire_cases rfl hlends.closing hlends.client_lt hlt hcx hfind
    rcases hcases with ⟨e, hgone, heq⟩ | ⟨id, options, t, slot, hnone, hs, hslot, hlease, heq⟩
    · have hspares : sys.Spares (fun _ => False) (sys.setClient (sys.registry registry).client c) :=
        .setClient hlends.client_lt hprepared.spares fun _ hf => hf
      have hset : Joint start tx accepted members (sys.setClient (sys.registry registry).client c) := by
        refine h.kept (h.gathers.of_eq rfl) hspares rfl rfl rfl fun client ns => ?_
        rw [stored_setClient hlends.client_lt]
        exact ite_stored hprepared.stored client ns
      have hacquired : acquired =
          (.error e, (sys.setClient (sys.registry registry).client c).setRegistry registry r) := heq
      rw [hacquired]
      exact ⟨members, hset.setRegistry hregistry hclient hclosing hgone, .inl ⟨e, rfl⟩⟩
    · have hjoint := h.enlisted hregistry rfl hprepared hnone hs hclient hclosing hslot hlease
      have hlast := lease_enlisted sys registry tx ⟨(sys.registry registry).client, id⟩ c
      have hacquired : acquired = (.ok sys.leases.length,
          (sys.enlisted registry tx ⟨(sys.registry registry).client, id⟩ c).setRegistry registry r) :=
        heq
      rw [hacquired]
      exact ⟨_, hjoint, .inr ⟨_, List.mem_append_right _ (List.mem_singleton_self _), rfl, rfl,
        congrArg Lease.disposed hlast⟩⟩

/-! ## Requests -/

theorem bufferedBy_append_self (accepted : List Accepted) (session : SessionRef)
    (changes : Option (Namespace × Changes)) :
    bufferedBy (accepted ++ (changes.map fun (ns, changes) => ⟨session, ns, changes⟩).toList) session =
      (bufferedBy accepted session).recordAll changes := by
  unfold bufferedBy
  rw [List.foldl_append]
  cases changes with
  | none => rfl
  | some change =>
    rw [Option.map_some, Option.toList_some, List.foldl_cons, if_pos rfl]
    rfl

theorem changesIn_append (accepted added : List Accepted) (session : SessionRef) (ns : Namespace) :
    changesIn (accepted ++ added) session ns =
      changesIn accepted session ns ++ changesIn added session ns :=
  List.flatMap_append

theorem changesIn_append_self (accepted : List Accepted) (session : SessionRef) (ns : Namespace)
    (changes : Changes) :
    changesIn (accepted ++ [⟨session, ns, changes⟩]) session = fun ns' =>
      if ns' = ns then changesIn accepted session ns ++ changes else changesIn accepted session ns' := by
  funext ns'
  rw [changesIn_append]
  unfold changesIn
  by_cases hns : ns' = ns
  · simp [hns]
  · simp [hns, Ne.symm hns]

theorem changesIn_append_of_ne {added : List Accepted} {session : SessionRef}
    (h : ∀ a ∈ added, a.session ≠ session) (accepted : List Accepted) :
    changesIn (accepted ++ added) session = changesIn accepted session := by
  funext ns
  rw [changesIn_append, changesIn_of_none h, List.append_nil]

theorem session_of_added {session : SessionRef} {changes : Option (Namespace × Changes)} {a : Accepted}
    (ha : a ∈ (changes.map fun (ns, changes) => Accepted.mk session ns changes).toList) :
    a.session = session := by
  obtain ⟨change, -, rfl⟩ := Option.map_eq_some_iff.1 (Option.mem_toList.1 ha)
  rfl

section Performing

variable {s : Session} {t : OpenTransaction} {r : Request}

theorem Joint.netOf_perform (h : Joint start tx accepted members sys) (hm : m ∈ members)
    (hs : sys.session? m.session = some s) (ht : s.transaction = some t)
    (hpending : t.pending = bufferedBy accepted m.session) (hr : r.Ordered) :
    let changes := (sys.client m.session.client).changesOf m.session.id r
    let added := (changes.map fun (ns, changes) => Accepted.mk m.session ns changes).toList
    ((bufferedBy accepted m.session).recordAll changes).NetOf (changesIn (accepted ++ added) m.session)
      (start.stored m.session.client) := by
  intro changes added
  have hnet := h.net m hm
  have hstart : start.stored m.session.client = (sys.client m.session.client).stored :=
    funext fun ns => (h.stored m.session.client ns).symm
  rw [hstart, ← hpending] at hnet ⊢
  cases hchanges : changes with
  | none =>
    have hnothing : added = [] := by
      show (changes.map _).toList = []
      rw [hchanges]
      rfl
    rw [hnothing, List.append_nil]
    exact hnet
  | some change =>
    obtain ⟨ns, made⟩ := change
    have hone : added = [⟨m.session, ns, made⟩] := by
      show (changes.map _).toList = _
      rw [hchanges]
      rfl
    rw [hone, changesIn_append_self]
    exact Client.netOf_record (h.standing.valid m.session.client) hs ht hr hnet hchanges

theorem Joint.perform (h : Joint start tx accepted members sys) (hm : m ∈ members)
    (hlive : (sys.lease m.lease).disposed = false) (hr : r.Ordered) :
    let changes := (sys.client m.session.client).changesOf m.session.id r
    let added := (changes.map fun (ns, changes) => Accepted.mk m.session ns changes).toList
    Joint start tx (accepted ++ added) members
      (sys.request m.session.client (some m.session) r).2 := by
  intro changes added
  let c := sys.client m.session.client
  let sys' := sys.setClient m.session.client (c.perform (.session m.session.id) r).2
  have hrequest : (sys.request m.session.client (some m.session) r).2 = sys' := by
    have hcaller : callerOn m.session.client (some m.session) = .session m.session.id := if_pos rfl
    unfold System.request
    have hon : sys.onClient m.session.client (fun c => c.perform (.session m.session.id) r) =
        ((c.perform (.session m.session.id) r).1.mapError .store, sys') := onClient_eq rfl
    rw [hcaller, hon]
  have hstands := h.standing.stands m hm
  have hlt := hstands.client_lt
  have hc := h.standing.valid m.session.client
  obtain ⟨s, hs, ⟨hdisposed, -⟩ | ⟨-, t, ht, hpending⟩⟩ := hstands.session
  · rw [hlive] at hdisposed
    cases hdisposed
  obtain ⟨hspares, hstored, t', hs', hpending'⟩ := Client.perform_buffers hs ht hc hr
  have hconcerns : sys.Concerns m sys' := .setClient hlt hspares fun id hid => by rw [hid]
  have hother (m' : Member) (hm' : m' ∈ members) (hne : m' ≠ m) (a : Accepted) (ha : a ∈ added) :
      a.session ≠ m'.session := by
    rw [session_of_added ha]
    exact (h.standing.apart_of_ne hm hm' hne).2.symm
  have hself : bufferedBy (accepted ++ added) m.session =
      (bufferedBy accepted m.session).recordAll changes :=
    bufferedBy_append_self accepted m.session changes
  rw [hrequest]
  refine ⟨h.gathers.of_eq rfl,
    h.standing.update hm hconcerns ?_ fun m' hm' hne => bufferedBy_append_of_ne (hother m' hm' hne) _,
    fun registry hlt' => ?_, h.registries, hconcerns.spares.clients.trans h.clients,
    fun client ns => ?_, fun a ha => ?_, fun m' hm' => ?_⟩
  · refine ⟨by rw [hconcerns.spares.clients]; exact hlt, hstands.lease_lt, hstands.enlistment_lt,
      hstands.enlistment, hstands.lease, hstands.completed, { s with transaction := some t' }, ?_,
      .inr ⟨hlive, t', rfl, ?_⟩⟩
    · show ((sys.setClient m.session.client _).client m.session.client).session? m.session.id = _
      rw [client_setClient_self hlt, hs']
    · rw [hself, hpending', hpending]
  · exact (h.lends registry hlt').kept rfl hconcerns.spares.clients (fun _ hm => hm) fun _ _ _ => rfl
  · rw [stored_setClient hlt, ← h.stored]
    exact ite_stored hstored client ns
  · rcases List.mem_append.1 ha with ha | ha
    · exact h.owned a ha
    · exact ⟨m, hm, (session_of_added ha).symm⟩
  · by_cases hne : m' = m
    · rw [hne, hself]
      exact h.netOf_perform hm hs ht hpending hr
    · rw [bufferedBy_append_of_ne (hother m' hm' hne), changesIn_append_of_ne (hother m' hm' hne)]
      exact h.net m' hm'

end Performing

theorem Joint.request (h : Joint start tx accepted members sys)
    (hregistry : registry < start.registries.length) (config : Config) {r : Request} (hr : r.Ordered) :
    ∃ members', Joint start tx (accepted ++ sys.acceptedIn tx (.request registry config r)) members'
      (sys.work tx (.request registry config r)) := by
  have hcx : (config.inside tx).transaction = some tx := rfl
  obtain ⟨members', hjoint, hacquired⟩ := h.acquire hregistry hcx
  unfold acceptedIn work requestThrough dispatch
  dsimp only [Config.inside] at hjoint hacquired ⊢
  generalize sys.acquire registry _ = acquired at *
  obtain ⟨outcome, sys₁⟩ := acquired
  rcases hacquired with ⟨e, houtcome⟩ | ⟨m, hm, houtcome, hclient, hlive⟩
  · obtain rfl : outcome = .error e := houtcome
    dsimp only
    rw [List.append_nil]
    exact ⟨members', hjoint⟩
  · obtain rfl : outcome = .ok m.lease := houtcome
    have hstands := hjoint.standing.stands m hm
    have hadmits : sys₁.admits m.lease = true := by
      unfold admits
      rw [hstands.completed]
      rfl
    dsimp only
    rw [hadmits, if_pos rfl, hstands.lease, ← hclient]
    exact ⟨members', hjoint.perform hm hlive hr⟩

/-- Every piece of work keeps what has been accepted, adds what it is told was accepted, and commits
nothing. -/
theorem Joint.work (h : Joint start tx accepted members sys) {w : Work} (hw : w.Fits start) :
    ∃ members', Joint start tx (accepted ++ sys.acceptedIn tx w) members' (sys.work tx w) := by
  cases w with
  | request registry config r => exact h.request hw.1 config hw.2
  | remove registry =>
    rw [acceptedIn, List.append_nil]
    exact ⟨members, h.remove hw⟩
  | arm client kind n =>
    have hclient : client < sys.clients.length := by
      rw [h.clients]
      exact hw
    rw [acceptedIn, List.append_nil]
    exact ⟨members, h.arm hclient kind n⟩
  | doom reason =>
    rw [acceptedIn, List.append_nil]
    exact ⟨members, h.doom reason⟩
  | wait seconds =>
    rw [acceptedIn, List.append_nil]
    exact ⟨members, h.wait seconds⟩

theorem Joint.workAll (h : Joint start tx accepted members sys) {works : List Work}
    (hworks : ∀ w ∈ works, w.Fits start) :
    ∃ members', Joint start tx (accepted ++ acceptedAll tx sys works) members'
      (sys.workAll tx works) := by
  induction works generalizing sys accepted members with
  | nil =>
    rw [acceptedAll, List.append_nil]
    exact ⟨members, h⟩
  | cons w rest ih =>
    obtain ⟨members', hstep⟩ := h.work (hworks w List.mem_cons_self)
    rw [acceptedAll, ← List.append_assoc]
    exact ih hstep fun w hw => hworks w (List.mem_cons_of_mem _ hw)

end System

end ScopedStore
