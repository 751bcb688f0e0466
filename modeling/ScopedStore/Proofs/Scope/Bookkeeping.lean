import ScopedStore.Proofs.Client.Lifetimes
import ScopedStore.Proofs.Scope.Ending

/-!
# What registries keep track of

Between two calls every running session is that of one lease (`System.Booked`), and a registry has a slot
for a lease as long as the lease's transaction is open and its enlistment takes part in it
(`System.Registered`, `System.Held`). While a transaction completes, its enlistments are told one after the
other, and only those that are still to be told keep their slots (`System.Disciplined`).
-/

namespace ScopedStore

namespace System

/-! ## The invariant -/

def ended? (sys : System) (ref : SessionRef) : Option Bool := (sys.client ref.client).ended? ref.id

/-- Each lease has a session of its own, which runs until the lease is disposed of, and no other session
runs. -/
structure Booked (sys : System) : Prop where
  lease : ∀ l < sys.leases.length, sys.ended? (sys.lease l).session = some (sys.lease l).disposed
  apart : ∀ l < sys.leases.length, ∀ l' < sys.leases.length,
    (sys.lease l').session = (sys.lease l).session → l' = l
  session : ∀ ref, sys.ended? ref = some false →
    ∃ l < sys.leases.length, (sys.lease l).session = ref
  once : ∀ client, (sys.client client).EndsOnce

/-- The enlistment takes part in a transaction, or is about to be told its outcome. -/
def Owed (sys : System) (telling : List EnlistmentKey) (tx : TxKey) (e : EnlistmentKey) : Prop :=
  Participant.enlisted e ∈ (sys.transaction tx).participants ∨ e ∈ telling

/-- The enlistments of leases, at most one of each, are all the participants there are. A slot holds a
lease whose enlistment is to be told the outcome of the slot's transaction and will then take the slot out;
a lease without such an enlistment is done with. -/
structure Registered (telling : List EnlistmentKey) (sys : System) : Prop where
  enlistment : ∀ e < sys.enlistments.length, (sys.enlistment e).lease < sys.leases.length ∧
    ∃ registry, (sys.enlistment e).onCompletion =
      .detach registry (sys.lease (sys.enlistment e).lease).tx
  apart : ∀ e < sys.enlistments.length, ∀ e' < sys.enlistments.length,
    (sys.enlistment e').lease = (sys.enlistment e).lease → e' = e
  participant : ∀ tx, ∀ p ∈ (sys.transaction tx).participants, ∃ e < sys.enlistments.length,
    p = .enlisted e ∧ (sys.lease (sys.enlistment e).lease).tx = tx
  due : ∀ e ∈ telling, e < sys.enlistments.length ∧
    (sys.transaction (sys.lease (sys.enlistment e).lease).tx).isOpen = false
  closed : ∀ tx, (sys.transaction tx).isOpen = false → (sys.transaction tx).participants = []
  slot : ∀ registry tx l, sys.lookup registry tx = some l →
    l < sys.leases.length ∧ (sys.lease l).tx = tx ∧
    (∃ e, sys.Owed telling tx e ∧
      sys.enlistment e = { lease := l, onCompletion := .detach registry tx }) ∧
    ((sys.transaction tx).isOpen = true →
      (sys.lease l).completed = false ∧ (sys.lease l).disposed = false)
  accounted : ∀ l < sys.leases.length,
    ((sys.lease l).completed = true ∧ (sys.lease l).disposed = true) ∨
      ∃ e, sys.Owed telling (sys.lease l).tx e ∧ (sys.enlistment e).lease = l

/-- The leases of open transactions that are not disposed of are held in slots. -/
def Held (sys : System) : Prop :=
  ∀ l < sys.leases.length, (sys.transaction (sys.lease l).tx).isOpen = true →
    (sys.lease l).disposed = false → ∃ registry, sys.lookup registry (sys.lease l).tx = some l

/-- The invariant of a system in which no one but registries enlists participants and ends sessions. -/
structure Disciplined (telling : List EnlistmentKey) (sys : System) : Prop where
  booked : sys.Booked
  registered : sys.Registered telling
  held : sys.Held
  client_lt : ∀ registry < sys.registries.length,
    (sys.registry registry).client < sys.clients.length

def Filled (sys : System) : Prop :=
  ∀ registry tx slot, (sys.registry registry).slots.find? tx = some slot → slot.lease.isSome

/-! ## Relations between systems -/

/-- Leases stay what they are and, while their transactions are open, where they are; a transaction that
is not open stays closed. -/
structure Lasting (sys sys' : System) : Prop where
  registries : sys.registries.length ≤ sys'.registries.length
  lease : ∀ l < sys.leases.length, l < sys'.leases.length ∧ (sys'.lease l).tx = (sys.lease l).tx
  isOpen : ∀ tx, (sys'.transaction tx).isOpen = true → (sys.transaction tx).isOpen = true
  lookup : ∀ registry tx l, sys.lookup registry tx = some l →
    (sys'.transaction tx).isOpen = true → sys'.lookup registry tx = some l

/-- Nothing is added: no slot, no participant and no running session. The slots of transactions that are
open at the end are kept. -/
structure Narrows (sys sys' : System) : Prop where
  registries : sys'.registries.length = sys.registries.length
  clients : sys'.clients.length = sys.clients.length
  client : ∀ registry, (sys'.registry registry).client = (sys.registry registry).client
  slot : ∀ registry tx slot, (sys'.registry registry).slots.find? tx = some slot →
    (sys.registry registry).slots.find? tx = some slot
  kept : ∀ registry tx, (sys'.transaction tx).isOpen = true →
    (sys'.registry registry).slots.find? tx = (sys.registry registry).slots.find? tx
  isOpen : ∀ tx, (sys'.transaction tx).isOpen = true → (sys.transaction tx).isOpen = true
  participants : ∀ tx, (sys'.transaction tx).participants <+: (sys.transaction tx).participants
  lease : ∀ l < sys.leases.length, l < sys'.leases.length ∧ (sys'.lease l).tx = (sys.lease l).tx
  running : ∀ ref, sys'.ended? ref = some false → sys.ended? ref = some false

variable {sys sys' sys'' : System} {telling : List EnlistmentKey} {registry : RegistryKey} {tx : TxKey}
  {l : LeaseKey} {e : EnlistmentKey} {client : ClientKey} {c : Client}

namespace Lasting

theorem refl (sys : System) : sys.Lasting sys :=
  ⟨Nat.le_refl _, fun _ hl => ⟨hl, rfl⟩, fun _ h => h, fun _ _ _ h _ => h⟩

theorem trans (h : sys.Lasting sys') (h' : sys'.Lasting sys'') : sys.Lasting sys'' where
  registries := Nat.le_trans h.registries h'.registries
  lease l hl := by
    obtain ⟨hl', htx⟩ := h.lease l hl
    obtain ⟨hl'', htx'⟩ := h'.lease l hl'
    exact ⟨hl'', htx'.trans htx⟩
  isOpen tx hopen := h.isOpen tx (h'.isOpen tx hopen)
  lookup registry tx l hl hopen := h'.lookup registry tx l (h.lookup registry tx l hl (h'.isOpen tx hopen)) hopen

end Lasting

namespace Narrows

theorem refl (sys : System) : sys.Narrows sys :=
  ⟨rfl, rfl, fun _ => rfl, fun _ _ _ h => h, fun _ _ _ => rfl, fun _ h => h,
    fun _ => List.prefix_refl _, fun _ hl => ⟨hl, rfl⟩, fun _ h => h⟩

theorem trans (h : sys.Narrows sys') (h' : sys'.Narrows sys'') : sys.Narrows sys'' where
  registries := h'.registries.trans h.registries
  clients := h'.clients.trans h.clients
  client registry := (h'.client registry).trans (h.client registry)
  slot registry tx slot hslot := h.slot registry tx slot (h'.slot registry tx slot hslot)
  kept registry tx hopen := (h'.kept registry tx hopen).trans (h.kept registry tx (h'.isOpen tx hopen))
  isOpen tx hopen := h.isOpen tx (h'.isOpen tx hopen)
  participants tx := (h'.participants tx).trans (h.participants tx)
  lease l hl := by
    obtain ⟨hl', htx⟩ := h.lease l hl
    obtain ⟨hl'', htx'⟩ := h'.lease l hl'
    exact ⟨hl'', htx'.trans htx⟩
  running ref hrunning := h.running ref (h'.running ref hrunning)

theorem lasting (h : sys.Narrows sys') : sys.Lasting sys' where
  registries := Nat.le_of_eq h.registries.symm
  lease := h.lease
  isOpen := h.isOpen
  lookup registry tx l hl hopen := by
    unfold System.lookup at hl ⊢
    rw [h.kept registry tx hopen, hl]

end Narrows

theorem Filled.narrows (h : sys.Filled) (hnarrows : sys.Narrows sys') : sys'.Filled :=
  fun registry tx slot hslot => h registry tx slot (hnarrows.slot registry tx slot hslot)

/-! ## Rows -/

theorem transaction_of_eq (h : sys'.transactions = sys.transactions) (tx : TxKey) :
    sys'.transaction tx = sys.transaction tx := by
  unfold System.transaction
  rw [h]

theorem registry_of_eq (h : sys'.registries = sys.registries) (registry : RegistryKey) :
    sys'.registry registry = sys.registry registry := by
  unfold System.registry
  rw [h]

theorem lease_of_eq (h : sys'.leases = sys.leases) (l : LeaseKey) : sys'.lease l = sys.lease l := by
  unfold System.lease
  rw [h]

theorem enlistment_of_eq (h : sys'.enlistments = sys.enlistments) (e : EnlistmentKey) :
    sys'.enlistment e = sys.enlistment e := by
  unfold System.enlistment
  rw [h]

theorem lookup_of_eq (h : sys'.registries = sys.registries) (registry : RegistryKey) (tx : TxKey) :
    sys'.lookup registry tx = sys.lookup registry tx := by
  unfold System.lookup
  rw [registry_of_eq h]

theorem ended?_of_eq (h : sys'.clients = sys.clients) (ref : SessionRef) :
    sys'.ended? ref = sys.ended? ref := by
  unfold System.ended?
  rw [client_of_eq h]

theorem setClient_of_ge (h : sys.clients.length ≤ client) (c : Client) :
    sys.setClient client c = sys := by
  unfold System.setClient
  rw [List.set_eq_of_length_le h]

theorem setRegistry_of_ge (h : sys.registries.length ≤ registry) (r : Registry) :
    sys.setRegistry registry r = sys := by
  unfold System.setRegistry
  rw [List.set_eq_of_length_le h]

theorem client_setRegistry {r : Registry} (h : r.client = (sys.registry registry).client)
    (registry' : RegistryKey) :
    ((sys.setRegistry registry r).registry registry').client = (sys.registry registry').client := by
  by_cases hlt : registry < sys.registries.length
  · by_cases hsame : registry' = registry
    · rw [hsame, registry_setRegistry_self hlt, h]
    · rw [registry_setRegistry_of_ne hsame]
  · rw [setRegistry_of_ge (Nat.le_of_not_lt hlt)]

theorem ended?_setClient (hlt : client < sys.clients.length) (c : Client) (ref : SessionRef) :
    (sys.setClient client c).ended? ref =
      if ref.client = client then c.ended? ref.id else sys.ended? ref := by
  unfold System.ended?
  split
  · rename_i hclient
    rw [hclient, client_setClient_self hlt]
  · rename_i hclient
    rw [client_setClient_of_ne hclient]

theorem slots_setRegistry (hlt : registry < sys.registries.length) (r : Registry)
    (registry' : RegistryKey) :
    ((sys.setRegistry registry r).registry registry').slots =
      if registry' = registry then r.slots else (sys.registry registry').slots := by
  split
  · rename_i hsame
    rw [hsame, registry_setRegistry_self hlt]
  · rename_i hne
    rw [registry_setRegistry_of_ne hne]

theorem slots_setRegistry_of_eq {r : Registry} (h : r.slots = (sys.registry registry).slots)
    (registry' : RegistryKey) :
    ((sys.setRegistry registry r).registry registry').slots = (sys.registry registry').slots := by
  by_cases hlt : registry < sys.registries.length
  · rw [slots_setRegistry hlt]
    split
    · rename_i hsame
      rw [h, hsame]
    · rfl
  · rw [setRegistry_of_ge (Nat.le_of_not_lt hlt)]

theorem find?_setRegistry_insert (hlt : registry < sys.registries.length) {r : Registry} {tx : TxKey}
    {slot : Slot} (hslots : r.slots = (sys.registry registry).slots.insert tx slot)
    (registry' : RegistryKey) (tx' : TxKey) :
    ((sys.setRegistry registry r).registry registry').slots.find? tx' =
      if registry' = registry ∧ tx' = tx then some slot
      else (sys.registry registry').slots.find? tx' := by
  rw [slots_setRegistry hlt]
  by_cases hsame : registry' = registry
  · rw [if_pos hsame, hsame, hslots]
    by_cases htx : tx' = tx
    · rw [if_pos ⟨rfl, htx⟩, htx, SortedMap.find?_insert_self]
    · rw [if_neg fun h => htx h.2, SortedMap.find?_insert_of_ne _ _ htx]
  · rw [if_neg hsame, if_neg fun h => hsame h.1]

theorem client_detach (sys : System) (registry registry' : RegistryKey) (tx : TxKey) :
    ((sys.detach registry tx).registry registry').client = (sys.registry registry').client := by
  refine client_setRegistry ?_ registry'
  rfl

theorem find?_detach (sys : System) (registry registry' : RegistryKey) (tx tx' : TxKey) :
    ((sys.detach registry tx).registry registry').slots.find? tx' =
      if registry' = registry ∧ tx' = tx then none
      else (sys.registry registry').slots.find? tx' := by
  by_cases hlt : registry < sys.registries.length
  · by_cases hsame : registry' = registry
    · have hself : (sys.detach registry tx).registry registry =
          { sys.registry registry with slots := (sys.registry registry).slots.erase tx } :=
        registry_setRegistry_self hlt _
      rw [hsame, hself]
      by_cases htx : tx' = tx
      · rw [htx, if_pos ⟨rfl, rfl⟩]
        exact SortedMap.find?_erase_self _ tx
      · rw [if_neg fun h => htx h.2]
        exact SortedMap.find?_erase_of_ne _ htx
    · rw [if_neg fun h => hsame h.1]
      unfold System.detach
      rw [registry_setRegistry_of_ne hsame]
  · have hge : sys.registries.length ≤ registry := Nat.le_of_not_lt hlt
    have hsame : sys.detach registry tx = sys := setRegistry_of_ge hge _
    rw [hsame]
    split
    · rename_i h
      rw [h.1, System.registry, List.getD_eq_getElem?_getD, List.getElem?_eq_none hge]
      rfl
    · rfl

/-! ## Sessions of leases -/

theorem ended?_of_lasts (h : Client.Lasts (sys.client client) c) (ref : SessionRef) :
    (sys.setClient client c).ended? ref = sys.ended? ref := by
  by_cases hlt : client < sys.clients.length
  · rw [ended?_setClient hlt]
    split
    · rename_i hclient
      rw [h.ended, System.ended?, hclient]
    · rfl
  · rw [setClient_of_ge (Nat.le_of_not_lt hlt)]

theorem once_setClient (h : ∀ client, (sys.client client).EndsOnce) (hc : c.EndsOnce)
    (client client' : ClientKey) : ((sys.setClient client c).client client').EndsOnce := by
  by_cases hlt : client < sys.clients.length
  · by_cases hclient : client' = client
    · rw [hclient, client_setClient_self hlt]
      exact hc
    · rw [client_setClient_of_ne hclient]
      exact h client'
  · rw [setClient_of_ge (Nat.le_of_not_lt hlt)]
    exact h client'

theorem client_lt_of_ended? {ref : SessionRef} {b : Bool} (h : sys.ended? ref = some b) :
    ref.client < sys.clients.length := by
  by_contra hge
  rw [System.ended?, System.client, List.getD_eq_getElem?_getD,
    List.getElem?_eq_none (Nat.le_of_not_lt hge)] at h
  unfold Client.ended? Client.session? at h
  split at h <;> cases h

theorem ended?_setClient_of_id (hlt : client < sys.clients.length) {id : SessionId} {b : Bool}
    (h : ∀ id', c.ended? id' = if id' = id then some b else (sys.client client).ended? id')
    (ref : SessionRef) :
    (sys.setClient client c).ended? ref =
      if ref = ⟨client, id⟩ then some b else sys.ended? ref := by
  obtain ⟨client', id'⟩ := ref
  rw [ended?_setClient hlt]
  by_cases hclient : client' = client
  · obtain rfl := hclient
    rw [if_pos rfl, h]
    by_cases hid : id' = id
    · rw [if_pos hid, if_pos (by rw [hid])]
    · rw [if_neg hid, if_neg fun heq => hid (congrArg SessionRef.id heq)]
      rfl
  · rw [if_neg hclient, if_neg fun heq => hclient (congrArg SessionRef.client heq)]

theorem endSession_ends {ref : SessionRef} (hrunning : sys.ended? ref = some false) :
    ((∀ client, (sys.client client).EndsOnce) → ∀ client, ((sys.endSession ref).client client).EndsOnce) ∧
      ∀ ref', (sys.endSession ref).ended? ref' =
        if ref' = ref then some true else sys.ended? ref' := by
  obtain ⟨honce, hends⟩ := Client.endSession_ends hrunning
  exact ⟨fun h => once_setClient h (honce (h _)) _,
    ended?_setClient_of_id (client_lt_of_ended? hrunning) hends⟩

namespace Booked

theorem kept (h : sys.Booked)
    (hended : ∀ ref, sys'.ended? ref = sys.ended? ref ∨
      sys.ended? ref = none ∧ sys'.ended? ref = some true)
    (honce : ∀ client, (sys'.client client).EndsOnce)
    (hlength : sys'.leases.length = sys.leases.length)
    (hlease : ∀ l, (sys'.lease l).session = (sys.lease l).session ∧
      (sys'.lease l).disposed = (sys.lease l).disposed) : sys'.Booked where
  lease l hl := by
    rw [hlength] at hl
    obtain ⟨hsession, hdisposed⟩ := hlease l
    have hrunning := h.lease l hl
    rw [hsession, hdisposed]
    rcases hended (sys.lease l).session with heq | ⟨hnone, -⟩
    · rw [heq, hrunning]
    · rw [hnone] at hrunning
      cases hrunning
  apart l hl l' hl' hsame := by
    rw [hlength] at hl hl'
    rw [(hlease l).1, (hlease l').1] at hsame
    exact h.apart l hl l' hl' hsame
  session ref hrunning := by
    rcases hended ref with heq | ⟨-, hdead⟩
    · rw [heq] at hrunning
      obtain ⟨l, hl, hsession⟩ := h.session ref hrunning
      exact ⟨l, by rw [hlength]; exact hl, by rw [(hlease l).1, hsession]⟩
    · rw [hdead] at hrunning
      cases hrunning
  once := honce

theorem of_eq (h : sys.Booked) (hclients : sys'.clients = sys.clients)
    (hleases : sys'.leases = sys.leases) : sys'.Booked := by
  refine h.kept (fun ref => .inl (ended?_of_eq hclients ref)) (fun client => ?_) (by rw [hleases])
    fun l => by rw [lease_of_eq hleases]; exact ⟨rfl, rfl⟩
  rw [client_of_eq hclients]
  exact h.once client

theorem setClient (h : sys.Booked) (hlasts : Client.Lasts (sys.client client) c) :
    (sys.setClient client c).Booked :=
  h.kept (fun ref => .inl (ended?_of_lasts hlasts ref))
    (once_setClient h.once (hlasts.once (h.once client)) client) rfl fun _ => ⟨rfl, rfl⟩

theorem append (h : sys.Booked) {row : Lease}
    (hended : ∀ ref, sys'.ended? ref =
      if ref = row.session then some row.disposed else sys.ended? ref)
    (hnew : sys.ended? row.session = none) (honce : ∀ client, (sys'.client client).EndsOnce)
    (hlength : sys'.leases.length = sys.leases.length + 1)
    (hold : ∀ l < sys.leases.length, sys'.lease l = sys.lease l)
    (hrow : sys'.lease sys.leases.length = row) : sys'.Booked where
  lease l hl := by
    rw [hended]
    rcases Nat.lt_succ_iff_lt_or_eq.1 (hlength ▸ hl) with hlt | rfl
    · rw [hold l hlt, if_neg, h.lease l hlt]
      intro hsession
      have hrunning := h.lease l hlt
      rw [hsession, hnew] at hrunning
      cases hrunning
    · rw [hrow, if_pos rfl]
  apart l hl l' hl' hsame := by
    have hother (k : LeaseKey) (hk : k < sys.leases.length) : (sys.lease k).session ≠ row.session := by
      intro hsession
      have hrunning := h.lease k hk
      rw [hsession, hnew] at hrunning
      cases hrunning
    rcases Nat.lt_succ_iff_lt_or_eq.1 (hlength ▸ hl) with hlt | rfl <;>
      rcases Nat.lt_succ_iff_lt_or_eq.1 (hlength ▸ hl') with hlt' | rfl
    · rw [hold l hlt, hold l' hlt'] at hsame
      exact h.apart l hlt l' hlt' hsame
    · rw [hold l hlt, hrow] at hsame
      exact absurd hsame.symm (hother l hlt)
    · rw [hold l' hlt', hrow] at hsame
      exact absurd hsame (hother l' hlt')
    · rfl
  session ref hrunning := by
    rw [hended] at hrunning
    split at hrunning
    · rename_i hsession
      exact ⟨sys.leases.length, by omega, by rw [hrow, hsession]⟩
    · obtain ⟨l, hl, hsession⟩ := h.session ref hrunning
      exact ⟨l, by omega, by rw [hold l hl, hsession]⟩
  once := honce

end Booked

/-! ## Settling and disposing of a lease -/

theorem set_lease (sys : System) (l : LeaseKey) : sys.leases.set l (sys.lease l) = sys.leases :=
  set_getD sys.leases l default

theorem lease_of_set {row : Lease} (hl : l < sys.leases.length)
    (hleases : sys'.leases = sys.leases.set l row) (l' : LeaseKey) :
    sys'.lease l' = if l' = l then row else sys.lease l' := by
  unfold System.lease
  rw [hleases]
  split
  · rename_i hsame
    rw [hsame]
    exact getD_set_self hl row default
  · rename_i hne
    exact getD_set_of_ne (Ne.symm hne) sys.leases row default

/-- Only leases and clients have changed; leases have kept their transactions, and no session has come to
run. -/
structure Touches (sys sys' : System) : Prop where
  transactions : sys'.transactions = sys.transactions
  registries : sys'.registries = sys.registries
  enlistments : sys'.enlistments = sys.enlistments
  clients : sys'.clients.length = sys.clients.length
  running : ∀ ref, sys'.ended? ref = some false → sys.ended? ref = some false

theorem Touches.trans (h : sys.Touches sys') (h' : sys'.Touches sys'') : sys.Touches sys'' :=
  ⟨h'.transactions.trans h.transactions, h'.registries.trans h.registries,
    h'.enlistments.trans h.enlistments, h'.clients.trans h.clients,
    fun ref hrunning => h.running ref (h'.running ref hrunning)⟩

section Finishing

variable (h : sys.Booked) (hl : l < sys.leases.length)

include h hl

theorem Booked.settleLease {act : Client → SessionId → Except StoreError Unit × Client}
    (hact : ∀ c id s, Client.session? c id = some s → Client.Lasts c (act c id).2) :
    (sys.settleLease l act).2.Booked ∧ sys.Touches (sys.settleLease l act).2 ∧
      (sys.settleLease l act).2.leases = sys.leases.set l { sys.lease l with completed := true } := by
  cases hcompleted : (sys.lease l).completed with
  | true =>
    have hsame : sys.settleLease l act = (.ok (), sys) := if_pos hcompleted
    have hrow : { sys.lease l with completed := true } = sys.lease l := by rw [← hcompleted]
    rw [hsame, hrow, set_lease]
    exact ⟨h, ⟨rfl, rfl, rfl, rfl, fun _ hr => hr⟩, rfl⟩
  | false =>
    rw [settleLease_of_open hcompleted]
    dsimp only
    let sys₁ := sys.setLease l { sys.lease l with completed := true }
    have hrows (l' : LeaseKey) : sys₁.lease l' =
        if l' = l then { sys.lease l with completed := true } else sys.lease l' :=
      lease_of_set hl rfl l'
    have h₁ : sys₁.Booked := by
      refine h.kept (fun ref => .inl rfl) h.once (List.length_set ..) fun l' => ?_
      rw [hrows]
      split
      · rename_i hsame
        rw [hsame]
        exact ⟨rfl, rfl⟩
      · exact ⟨rfl, rfl⟩
    obtain ⟨s, hs, -⟩ := Option.map_eq_some_iff.1 (h.lease l hl)
    have hlasts := hact (sys₁.client (sys.lease l).session.client) (sys.lease l).session.id s hs
    exact ⟨h₁.setClient hlasts, ⟨rfl, rfl, rfl, List.length_set .., fun ref hrunning =>
      (ended?_of_lasts hlasts ref).symm.trans hrunning⟩, rfl⟩

/-- The session of a lease is ended when the lease is disposed of, and then only. -/
theorem Booked.disposeLease :
    (sys.disposeLease l).Booked ∧ sys.Touches (sys.disposeLease l) ∧
      (sys.disposeLease l).leases = sys.leases.set l { sys.lease l with disposed := true } := by
  cases hdisposed : (sys.lease l).disposed with
  | true =>
    have hsame : sys.disposeLease l = sys := if_pos hdisposed
    have hrow : { sys.lease l with disposed := true } = sys.lease l := by rw [← hdisposed]
    rw [hsame, hrow, set_lease]
    exact ⟨h, ⟨rfl, rfl, rfl, rfl, fun _ hr => hr⟩, rfl⟩
  | false =>
    let session := (sys.lease l).session
    let sys₁ := sys.setLease l { sys.lease l with disposed := true }
    have hdisposes : sys.disposeLease l = sys₁.endSession session := by
      unfold System.disposeLease
      exact if_neg (by rw [hdisposed]; exact Bool.false_ne_true)
    have hrunning : sys₁.ended? session = some false := (h.lease l hl).trans (by rw [hdisposed])
    obtain ⟨honce, hended⟩ := endSession_ends hrunning
    have hrows (l' : LeaseKey) : (sys₁.endSession session).lease l' =
        if l' = l then { sys.lease l with disposed := true } else sys.lease l' :=
      lease_of_set hl rfl l'
    rw [hdisposes]
    refine ⟨⟨fun l' hl' => ?_, fun l' hl' l'' hl'' hsame => ?_, fun ref hlive => ?_,
      honce h.once⟩,
      ⟨rfl, rfl, rfl, List.length_set .., fun ref hlive => ?_⟩, rfl⟩
    · have hlt' : l' < sys.leases.length := by rwa [← List.length_set]
      rw [hrows, hended]
      split
      · exact if_pos rfl
      · rename_i hne
        rw [if_neg fun heq => hne (h.apart l hl l' hlt' heq)]
        exact h.lease l' hlt'
    · have hlt' : l' < sys.leases.length := by rwa [← List.length_set]
      have hlt'' : l'' < sys.leases.length := by rwa [← List.length_set]
      have hsession (k : LeaseKey) :
          ((sys₁.endSession session).lease k).session = (sys.lease k).session := by
        rw [hrows]
        split
        · rename_i hk
          rw [hk]
        · rfl
      rw [hsession, hsession] at hsame
      exact h.apart l' hlt' l'' hlt'' hsame
    · rw [hended] at hlive
      split at hlive
      · cases hlive
      · rename_i hne
        obtain ⟨l', hl', hsession⟩ := h.session ref hlive
        refine ⟨l', by rwa [show (sys₁.endSession session).leases.length = _ from
          List.length_set ..], ?_⟩
        rw [hrows, if_neg, hsession]
        rintro rfl
        exact hne hsession.symm
    · rw [hended] at hlive
      split at hlive
      · cases hlive
      · exact hlive

/-- A lease that is settled and disposed of is done with, and no other is concerned. -/
theorem Booked.finish {act : Client → SessionId → Except StoreError Unit × Client}
    (hact : ∀ c id s, Client.session? c id = some s → Client.Lasts c (act c id).2) :
    let final := (sys.settleLease l act).2.disposeLease l
    final.Booked ∧ sys.Touches final ∧ final.leases.length = sys.leases.length ∧
      ∀ l', final.lease l' = if l' = l then
        { sys.lease l' with completed := true, disposed := true } else sys.lease l' := by
  intro final
  obtain ⟨hbooked₁, htouches₁, hleases₁⟩ := h.settleLease hl hact
  have hl₁ : l < (sys.settleLease l act).2.leases.length := by
    rw [hleases₁, List.length_set]
    exact hl
  obtain ⟨hbooked₂, htouches₂, hleases₂⟩ := hbooked₁.disposeLease hl₁
  have hlease₁ := lease_of_set hl hleases₁
  have hlease₂ := lease_of_set hl₁ hleases₂
  refine ⟨hbooked₂, htouches₁.trans htouches₂, ?_, fun l' => ?_⟩
  · rw [hleases₂, List.length_set, hleases₁, List.length_set]
  · rw [hlease₂, hlease₁, if_pos rfl, hlease₁]
    by_cases hsame : l' = l
    · rw [if_pos hsame, if_pos hsame, hsame]
    · rw [if_neg hsame, if_neg hsame, if_neg hsame]

end Finishing

end System

end ScopedStore
