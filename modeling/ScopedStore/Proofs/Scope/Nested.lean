import ScopedStore.Proofs.Client.Service
import ScopedStore.Proofs.Scope.Conclusion
import ScopedStore.Proofs.Scope.Equivalence
import ScopedStore.Proofs.Scope.Leasing

/-!
# Open transactions beside one another

While scopes are nested, several transactions are open that work with one registry. Each has one member at
most, whose session has buffered what was written under it (`System.Carries`). What is done under one of
them, with none, or at the end of one leaves the others as they are (`System.Nested`).
-/

namespace ScopedStore

theorem SessionRef.eq_of {s s' : SessionRef} (hclient : s'.client = s.client) (hid : s'.id = s.id) :
    s' = s :=
  calc s' = ⟨s'.client, s'.id⟩ := rfl
    _ = ⟨s.client, s.id⟩ := by rw [hclient, hid]

theorem Transaction.isExpired_of_checkAccepting {t : Transaction} {id : TxId} {now : Nat} {e : TxError}
    (hopen : t.isOpen = true) (h : t.checkAccepting id now = .error e) : t.isExpired now = true := by
  unfold Transaction.checkAccepting at h
  rw [hopen, Bool.not_true, if_neg Bool.false_ne_true] at h
  split at h
  · assumption
  · cases h

namespace System

/-! ## One transaction -/

/-- The member of a transaction that works with a registry of a client, and what its session has
buffered. -/
structure Engaged (sys : System) (client : ClientKey) (registry : RegistryKey) (key : TxKey)
    (m : Member) (p : Pending) : Prop where
  lent : sys.Lent key m
  registry_eq : m.registry = registry
  client_eq : m.session.client = client
  slot : ∃ slot, (sys.registry registry).slots.find? key = some slot ∧ slot.lease = some m.lease
  session : ∃ s t, sys.session? m.session = some s ∧ s.transaction = some t ∧ t.pending = p

/-- The open transaction has buffered writes with its member; before it has used the registry it has
neither. -/
structure Carries (sys : System) (client : ClientKey) (registry : RegistryKey) (key : TxKey)
    (member : Option Member) (p : Pending) : Prop where
  tx_lt : key < sys.transactions.length
  isOpen : (sys.transaction key).isOpen = true
  participants : (sys.transaction key).participants = member.toList.map Member.participant
  unused : member = none → (sys.registry registry).slots.find? key = none ∧ p = ∅
  engaged : ∀ m, member = some m → sys.Engaged client registry key m p

/-- Nothing that a transaction refers to has changed. -/
structure Untouched (sys : System) (registry : RegistryKey) (key : TxKey) (member : Option Member)
    (sys' : System) : Prop where
  clients : sys'.clients.length = sys.clients.length
  transactions : sys.transactions.length ≤ sys'.transactions.length
  isOpen : (sys'.transaction key).isOpen = (sys.transaction key).isOpen
  participants : (sys'.transaction key).participants = (sys.transaction key).participants
  slot : (sys'.registry registry).slots.find? key = (sys.registry registry).slots.find? key
  leases : sys.leases.length ≤ sys'.leases.length
  lease : ∀ m, member = some m → m.lease < sys.leases.length → sys'.lease m.lease = sys.lease m.lease
  enlistment : ∀ m, member = some m → sys'.enlistment m.enlistment = sys.enlistment m.enlistment
  session : ∀ m, member = some m → ∀ s, sys.session? m.session = some s →
    sys'.session? m.session = some s

variable {sys sys' : System} {client : ClientKey} {registry : RegistryKey} {key : TxKey}
  {member : Option Member} {m : Member} {p : Pending} {cx : Context}

theorem Carries.kept (h : sys.Carries client registry key member p)
    (hkept : sys.Untouched registry key member sys') : sys'.Carries client registry key member p where
  tx_lt := Nat.lt_of_lt_of_le h.tx_lt hkept.transactions
  isOpen := hkept.isOpen.trans h.isOpen
  participants := hkept.participants.trans h.participants
  unused hnone := ⟨hkept.slot.trans (h.unused hnone).1, (h.unused hnone).2⟩
  engaged m hm := by
    obtain ⟨⟨hclient, hlease, hrow, henlistment⟩, hregistry, hclient_eq, hslot, s, t, hs, hrest⟩ :=
      h.engaged m hm
    refine ⟨⟨hkept.clients ▸ hclient, Nat.lt_of_lt_of_le hlease hkept.leases,
      (hkept.lease m hm hlease).trans hrow, (hkept.enlistment m hm).trans henlistment⟩, hregistry,
      hclient_eq, ?_, s, t, hkept.session m hm s hs, hrest⟩
    rw [hkept.slot]
    exact hslot

theorem Carries.start (h : sys.Serves registry client) {t : Transaction} (hopen : t.isOpen = true)
    (hparticipants : t.participants = []) :
    (sys.addTransaction t).2.Carries client registry sys.transactions.length none ∅ := by
  have hrow : (sys.addTransaction t).2.transaction sys.transactions.length = t :=
    sys.transaction_addTransaction t
  refine ⟨?_, by rw [hrow, hopen], by rw [hrow, hparticipants]; rfl, fun _ => ⟨?_, rfl⟩,
    fun m hm => by cases hm⟩
  · show sys.transactions.length < (sys.transactions ++ [t]).length
    rw [List.length_append]
    exact Nat.lt_succ_self _
  · show (sys.registry registry).slots.find? sys.transactions.length = none
    cases hslot : (sys.registry registry).slots.find? sys.transactions.length with
    | none => rfl
    | some slot => exact absurd (h.started _ slot hslot) (Nat.lt_irrefl _)

/-! ## Steps that leave a transaction alone -/

theorem Untouched.of_rows (hclients : sys'.clients = sys.clients) (hleases : sys'.leases = sys.leases)
    (henlistments : sys'.enlistments = sys.enlistments)
    (htransactions : sys.transactions.length ≤ sys'.transactions.length)
    (hopen : (sys'.transaction key).isOpen = (sys.transaction key).isOpen)
    (hparticipants : (sys'.transaction key).participants = (sys.transaction key).participants)
    (hslot : (sys'.registry registry).slots.find? key = (sys.registry registry).slots.find? key) :
    sys.Untouched registry key member sys' where
  clients := congrArg List.length hclients
  transactions := htransactions
  isOpen := hopen
  participants := hparticipants
  slot := hslot
  leases := Nat.le_of_eq (congrArg List.length hleases).symm
  lease m _ _ := lease_of_eq hleases m.lease
  enlistment m _ := enlistment_of_eq henlistments m.enlistment
  session m _ s hs := by
    rw [System.session?, client_of_eq hclients]
    exact hs

theorem untouched_addTransaction (hkey : key < sys.transactions.length) (t : Transaction) :
    sys.Untouched registry key member (sys.addTransaction t).2 := by
  have hrow : (sys.addTransaction t).2.transaction key = sys.transaction key :=
    getD_append_of_lt hkey [t] default
  refine .of_rows rfl rfl rfl ?_ (by rw [hrow]) (by rw [hrow]) rfl
  show sys.transactions.length ≤ (sys.transactions ++ [t]).length
  rw [List.length_append]
  exact Nat.le_add_right _ _

theorem untouched_doom (sys : System) (registry : RegistryKey) (key : TxKey) (member : Option Member)
    (key' : TxKey) (reason : String) :
    sys.Untouched registry key member (sys.doom key' reason) := by
  have hrow : ((sys.doom key' reason).transaction key).isOpen = (sys.transaction key).isOpen ∧
      ((sys.doom key' reason).transaction key).participants = (sys.transaction key).participants := by
    by_cases hsame : key' = key
    · subst hsame
      by_cases hlt : key' < sys.transactions.length
      · rw [doom, transaction_setTransaction_self hlt]
        exact ⟨rfl, rfl⟩
      · rw [doom, setTransaction_of_ge (Nat.le_of_not_lt hlt)]
        exact ⟨rfl, rfl⟩
    · rw [doom, transaction_setTransaction_of_ne hsame]
      exact ⟨rfl, rfl⟩
  exact .of_rows rfl rfl rfl (Nat.le_of_eq (List.length_set ..).symm) hrow.1 hrow.2 rfl

theorem untouched_setClient (hclient : client < sys.clients.length) {touched : SessionId → Prop}
    {c : Client} (hspares : Client.Spares touched (sys.client client) c)
    (hother : ∀ m, member = some m → m.session.client = client → ¬touched m.session.id) :
    sys.Untouched registry key member (sys.setClient client c) := by
  refine ⟨List.length_set .., Nat.le_refl _, rfl, rfl, rfl, Nat.le_refl _, fun _ _ _ => rfl,
    fun _ _ => rfl, fun m hm s hs => ?_⟩
  unfold System.session? at hs ⊢
  by_cases hsame : m.session.client = client
  · rw [hsame] at hs ⊢
    rw [client_setClient_self hclient]
    exact hspares.sessions _ s hs (hother m hm hsame)
  · rw [client_setClient_of_ne hsame, hs]

/-! ## The first use of the registry -/

/-- A registry has replaced its slot of one transaction. -/
structure Reslots (r : Registry) (key : TxKey) (r' : Registry) : Prop where
  client : r'.client = r.client
  closing : r'.closing = r.closing
  slot : ∀ key', key' ≠ key → r'.slots.find? key' = r.slots.find? key'

theorem acquire_of_unused (hserves : sys.Serves registry client)
    (hunarmed : (sys.client client).Unarmed) (hcx : cx.transaction = some key)
    (hnone : (sys.registry registry).slots.find? key = none) :
    ∃ r, Reslots (sys.registry registry) key r ∧
      ((∃ e, (sys.transaction key).checkAccepting (sys.txId key) sys.clock = .error e ∧
          r.slots.find? key = none ∧
          sys.acquire registry cx = (.error e, sys.setRegistry registry r)) ∨
        ∃ id c s options, (sys.client client).session? id = none ∧
          Client.Alike (sys.client client) c ∧
          Client.Spares (fun _ => False) (sys.client client) c ∧
          Client.Starts (· = id) (sys.client client) c ∧
          c.session? id = some s ∧ s.transaction = some { options := options } ∧
          r.slots.find? key =
            some { serial := (sys.registry registry).nextSerial, lease := some sys.leases.length } ∧
          sys.acquire registry cx = (.ok sys.leases.length,
            (sys.enlisted registry key ⟨client, id⟩ c).setRegistry registry r)) := by
  let r := withSlot (sys.registry registry) key
  let sys₁ := sys.setRegistry registry r
  have hrow : sys₁.registry registry = r := registry_setRegistry_self hserves.registry_lt r
  have hslots (key' : TxKey) (hne : key' ≠ key) :
      r.slots.find? key' = (sys.registry registry).slots.find? key' :=
    SortedMap.find?_insert_of_ne _ _ hne
  cases hcheck : (sys₁.transaction key).checkAccepting (sys₁.txId key) sys₁.clock with
  | error e =>
    have hcreate : sys₁.createLease (closeWithin sys.heldScopes) registry cx key =
        (.error e, sys₁.setClient client (sys.client client)) := by
      have hsame : sys₁.setClient client (sys.client client) = sys₁ := setClient_client sys₁ client
      unfold createLease
      rw [hcheck, hsame]
    have hacquired := acquire_of_failed hserves.registry_lt hcx hnone hcreate
    rw [setClient_client] at hacquired
    refine ⟨{ r with slots := r.slots.erase key }, ⟨rfl, rfl, fun key' hne => ?_⟩,
      .inl ⟨e, hcheck, SortedMap.find?_erase_self _ _, hacquired⟩⟩
    exact (SortedMap.find?_erase_of_ne _ hne).trans (hslots key' hne)
  | ok u =>
    obtain ⟨id, c, options, hopen, halike, hspares, hmissing, hs⟩ :=
      hunarmed.openSession cx.config.session (sys₁.transaction key).options
    have hheld : sys₁.closeHeldScope (closeWithin sys.heldScopes) registry = sys₁ := by
      unfold closeHeldScope
      dsimp only
      rw [hrow]
      have hclosing : r.closing = none := hserves.closing
      rw [hclosing]
    have hcreate : sys₁.createLease (closeWithin sys.heldScopes) registry cx key =
        (.ok sys.leases.length, sys₁.enlisted registry key ⟨client, id⟩ c) := by
      have hclient : (sys₁.registry registry).client = client := by
        rw [hrow]
        exact hserves.client_eq
      refine (createLease_of_openSession hcheck hheld hclient hserves.client_lt hopen).trans ?_
      refine (enlistLease_eq hcx sys₁ registry ⟨client, id⟩ c).trans ?_
      rw [hcheck]
      rfl
    have hacquired := acquire_of_enlisted hserves.registry_lt hcx hnone hcreate
    let slot : Slot :=
      { serial := (sys.registry registry).nextSerial, lease := some sys.leases.length }
    refine ⟨{ r with slots := r.slots.insert key slot }, ⟨rfl, rfl, fun key' hne => ?_⟩,
      .inr ⟨id, c, _, options, hmissing, halike, hspares, Client.starts_openSession hopen halike, hs, rfl,
        SortedMap.find?_insert_self _ _ _, hacquired⟩⟩
    exact (SortedMap.find?_insert_of_ne _ _ hne).trans (hslots key' hne)

theorem untouched_setRegistry (hlt : registry < sys.registries.length) {key' : TxKey} {r : Registry}
    (hr : Reslots (sys.registry registry) key' r) (hne : key ≠ key') :
    sys.Untouched registry key member (sys.setRegistry registry r) := by
  refine .of_rows rfl rfl rfl (Nat.le_refl _) rfl rfl ?_
  rw [registry_setRegistry_self hlt, hr.slot key hne]

theorem Serves.setRegistry (h : sys.Serves registry client) {r : Registry}
    (hr : Reslots (sys.registry registry) key r) (hkey : key < sys.transactions.length) :
    (sys.setRegistry registry r).Serves registry client := by
  have hrow : (sys.setRegistry registry r).registry registry = r :=
    registry_setRegistry_self h.registry_lt r
  refine ⟨h.client_lt, ?_, ?_, ?_, fun tx slot hslot => ?_⟩
  · rw [System.setRegistry, List.length_set]
    exact h.registry_lt
  · rw [hrow, hr.client, h.client_eq]
  · rw [hrow, hr.closing, h.closing]
  · by_cases hsame : tx = key
    · rw [hsame]
      exact hkey
    · rw [hrow, hr.slot tx hsame] at hslot
      exact h.started tx slot hslot

theorem Lent.enlistment_lt (h : sys.Lent key m) : m.enlistment < sys.enlistments.length := by
  by_contra hge
  have hrow := h.enlistment
  rw [System.enlistment, List.getD_eq_getElem?_getD,
    List.getElem?_eq_none (Nat.le_of_not_lt hge)] at hrow
  cases congrArg Enlistment.onCompletion hrow

section Enlisting

variable {id : SessionId} {c : Client} {r : Registry}

theorem registry_enlisted (hlt : registry < sys.registries.length) (key : TxKey) (session : SessionRef)
    (c : Client) (r : Registry) :
    ((sys.enlisted registry key session c).setRegistry registry r).registry registry = r :=
  getD_set_self hlt r default

theorem session?_enlisted (hclient : client < sys.clients.length) (key : TxKey) (id : SessionId)
    (c : Client) (ref : SessionRef) :
    ((sys.enlisted registry key ⟨client, id⟩ c).setRegistry registry r).session? ref =
      if ref.client = client then c.session? ref.id else sys.session? ref := by
  show ((sys.setClient client c).client ref.client).session? ref.id = _
  split
  · rename_i hsame
    rw [hsame, client_setClient_self hclient]
  · rename_i hsame
    rw [client_setClient_of_ne hsame]
    rfl

/-- Enlisting a lease in one transaction leaves the others alone. -/
theorem Carries.untouched_enlisted {key' : TxKey} (h : sys.Carries client registry key' member p)
    (hserves : sys.Serves registry client) (hne : key' ≠ key)
    (hspares : Client.Spares (fun _ => False) (sys.client client) c)
    (hr : Reslots (sys.registry registry) key r) :
    sys.Untouched registry key' member
      ((sys.enlisted registry key ⟨client, id⟩ c).setRegistry registry r) := by
  let sys' := (sys.enlisted registry key ⟨client, id⟩ c).setRegistry registry r
  have hrow : sys'.transaction key' = sys.transaction key' :=
    transaction_setTransaction_of_ne hne.symm sys _
  have hself : sys'.registry registry = r := registry_enlisted hserves.registry_lt key ⟨client, id⟩ c r
  refine ⟨List.length_set .., Nat.le_of_eq (List.length_set ..).symm, by rw [hrow], by rw [hrow], ?_, ?_,
    fun m _ hlt => getD_append_of_lt hlt _ _,
    fun m hm => getD_append_of_lt (h.engaged m hm).lent.enlistment_lt _ _, fun m hm s hs => ?_⟩
  · rw [hself, hr.slot key' hne]
  · show sys.leases.length ≤ (sys.leases ++ [_]).length
    rw [List.length_append]
    exact Nat.le_add_right _ _
  · rw [session?_enlisted hserves.client_lt]
    have hclient := (h.engaged m hm).client_eq
    rw [System.session?, hclient] at hs
    rw [if_pos hclient]
    exact hspares.sessions _ s hs fun hf => hf

theorem Carries.enlisted (h : sys.Carries client registry key none p)
    (hserves : sys.Serves registry client) {s : Session} {t : OpenTransaction}
    (hs : c.session? id = some s) (ht : s.transaction = some t) (hpending : t.pending = ∅) {slot : Slot}
    (hslot : r.slots.find? key = some slot) (hlease : slot.lease = some sys.leases.length) :
    let m : Member := ⟨registry, sys.enlistments.length, sys.leases.length, ⟨client, id⟩⟩
    ((sys.enlisted registry key ⟨client, id⟩ c).setRegistry registry r).Carries client registry key
      (some m) p := by
  intro m
  let sys' := (sys.enlisted registry key ⟨client, id⟩ c).setRegistry registry r
  have hrow : sys'.transaction key = { sys.transaction key with
      participants := (sys.transaction key).participants ++ [m.participant] } :=
    transaction_setTransaction_self h.tx_lt _
  have hself : sys'.registry registry = r := registry_enlisted hserves.registry_lt key ⟨client, id⟩ c r
  have hlent : sys'.Lent key m := by
    refine ⟨?_, ?_, lease_enlisted sys registry key ⟨client, id⟩ c,
      getD_length_append sys.enlistments _ default⟩
    · show client < (sys.clients.set client c).length
      rw [List.length_set]
      exact hserves.client_lt
    · show sys.leases.length < (sys.leases ++ [_]).length
      rw [List.length_append]
      exact Nat.lt_succ_self _
  refine ⟨?_, by rw [hrow]; exact h.isOpen, by rw [hrow, h.participants]; rfl, fun hm => (by cases hm),
    fun m' hm' => ?_⟩
  · show key < (sys.transactions.set key _).length
    rw [List.length_set]
    exact h.tx_lt
  · obtain rfl : m = m' := Option.some.inj hm'
    refine ⟨hlent, rfl, rfl, by rw [hself]; exact ⟨slot, hslot, hlease⟩, s, t, ?_, ht, ?_⟩
    · exact (session?_enlisted hserves.client_lt key id c m.session).trans ((if_pos rfl).trans hs)
    · rw [hpending, (h.unused rfl).2]

end Enlisting

/-! ## All open transactions -/

/-- The open transactions, each with its member and its writes, work with one registry of a client on
which no call is armed to fail. No two have a session in common. -/
structure Nested (sys : System) (client : ClientKey) (registry : RegistryKey) (keys : List TxKey)
    (members : TxKey → Option Member) (writes : TxKey → Pending) : Prop where
  serves : sys.Serves registry client
  valid : (sys.client client).Valid
  unarmed : (sys.client client).Unarmed
  carries : ∀ key ∈ keys, sys.Carries client registry key (members key) (writes key)
  apart : ∀ key ∈ keys, ∀ key' ∈ keys, key' ≠ key → ∀ m m', members key = some m →
    members key' = some m' → m'.session ≠ m.session

/-- No transaction starts and none is doomed. -/
structure KeepsFates (sys sys' : System) : Prop where
  transactions : sys'.transactions.length = sys.transactions.length
  doomed : ∀ key, (sys'.transaction key).doomed = (sys.transaction key).doomed

variable {keys : List TxKey} {members : TxKey → Option Member} {writes : TxKey → Pending}

theorem Nested.kept (h : sys.Nested client registry keys members writes)
    (hserves : sys'.Serves registry client) (hvalid : (sys'.client client).Valid)
    (hunarmed : (sys'.client client).Unarmed)
    (hkept : ∀ key ∈ keys, sys.Untouched registry key (members key) sys') :
    sys'.Nested client registry keys members writes :=
  ⟨hserves, hvalid, hunarmed, fun key hkey => (h.carries key hkey).kept (hkept key hkey), h.apart⟩

theorem Nested.restrict (h : sys.Nested client registry keys members writes) {keys' : List TxKey}
    {writes' : TxKey → Pending} (hkeys : ∀ key ∈ keys', key ∈ keys)
    (hwrites : ∀ key ∈ keys', writes' key = writes key) :
    sys.Nested client registry keys' members writes' := by
  refine ⟨h.serves, h.valid, h.unarmed, fun key hkey => ?_, fun key₁ hkey₁ key₂ hkey₂ =>
    h.apart key₁ (hkeys key₁ hkey₁) key₂ (hkeys key₂ hkey₂)⟩
  rw [hwrites key hkey]
  exact h.carries key (hkeys key hkey)

theorem Nested.valid_writes (h : sys.Nested client registry keys members writes) (hkey : key ∈ keys) :
    (writes key).Valid := by
  have hcarries := h.carries key hkey
  cases hmember : members key with
  | none =>
    rw [(hcarries.unused hmember).2]
    exact Pending.valid_empty
  | some m =>
    obtain ⟨-, -, hclient, -, s, t, hs, ht, hpending⟩ := hcarries.engaged m hmember
    rw [System.session?, hclient] at hs
    rw [← hpending]
    exact h.valid.pending _ s t hs ht

/-! ### Time, new transactions and doom -/

theorem Serves.of_eq (h : sys.Serves registry client) (hclients : sys'.clients = sys.clients)
    (hregistries : sys'.registries = sys.registries)
    (htransactions : sys.transactions.length ≤ sys'.transactions.length) :
    sys'.Serves registry client := by
  have hrow := registry_of_eq hregistries registry
  refine ⟨hclients ▸ h.client_lt, hregistries ▸ h.registry_lt, by rw [hrow, h.client_eq],
    by rw [hrow, h.closing], fun tx slot hslot => ?_⟩
  rw [hrow] at hslot
  exact Nat.lt_of_lt_of_le (h.started tx slot hslot) htransactions

theorem Nested.wait (h : sys.Nested client registry keys members writes) (seconds : Nat) :
    { sys with clock := sys.clock + seconds }.Nested client registry keys members writes :=
  h.kept (h.serves.of_eq rfl rfl (Nat.le_refl _)) h.valid h.unarmed fun _ _ =>
    .of_rows rfl rfl rfl (Nat.le_refl _) rfl rfl rfl

theorem Nested.doom (h : sys.Nested client registry keys members writes) (key : TxKey)
    (reason : String) : (sys.doom key reason).Nested client registry keys members writes :=
  h.kept (h.serves.of_eq rfl rfl (Nat.le_of_eq (List.length_set ..).symm)) h.valid h.unarmed
    fun key' _ => untouched_doom sys registry key' (members key') key reason

theorem Nested.start (h : sys.Nested client registry keys members writes) {t : Transaction}
    (hopen : t.isOpen = true) (hparticipants : t.participants = [])
    (hempty : writes sys.transactions.length = ∅) :
    (sys.addTransaction t).2.Nested client registry (sys.transactions.length :: keys)
      (Function.update members sys.transactions.length none) writes := by
  have hne (key : TxKey) (hkey : key ∈ keys) : key ≠ sys.transactions.length :=
    Nat.ne_of_lt (h.carries key hkey).tx_lt
  have hlonger : sys.transactions.length ≤ (sys.addTransaction t).2.transactions.length := by
    show _ ≤ (sys.transactions ++ [t]).length
    rw [List.length_append]
    exact Nat.le_add_right _ _
  refine ⟨h.serves.of_eq rfl rfl hlonger, h.valid, h.unarmed, fun key hkey => ?_,
    fun key hkey key' hkey' hdistinct m m' hm hm' => ?_⟩
  · rcases List.mem_cons.1 hkey with rfl | hkey
    · rw [Function.update_self, hempty]
      exact .start h.serves hopen hparticipants
    · rw [Function.update_of_ne (hne key hkey)]
      exact (h.carries key hkey).kept (untouched_addTransaction (h.carries key hkey).tx_lt t)
  · rcases List.mem_cons.1 hkey with rfl | hkey
    · rw [Function.update_self] at hm
      cases hm
    · rcases List.mem_cons.1 hkey' with rfl | hkey'
      · rw [Function.update_self] at hm'
        cases hm'
      · rw [Function.update_of_ne (hne _ hkey)] at hm
        rw [Function.update_of_ne (hne _ hkey')] at hm'
        exact h.apart key hkey key' hkey' hdistinct m m' hm hm'

/-! ### Operations -/

theorem Serves.setClient (h : sys.Serves registry client) (client' : ClientKey) (c : Client) :
    (sys.setClient client' c).Serves registry client :=
  ⟨by rw [System.setClient, List.length_set]; exact h.client_lt, h.registry_lt, h.client_eq, h.closing,
    h.started⟩

theorem Nested.plain (h : sys.Nested client registry keys members writes) {handle : Handle}
    {op : DocumentOp} (hr : (Request.documents handle op).Ordered) :
    (sys.afterPlain client (.documents handle op)).Nested client registry keys members writes := by
  have hself : (sys.afterPlain client (.documents handle op)).client client =
      ((sys.client client).perform .plain (.documents handle op)).2 :=
    client_afterPlain h.serves.client_lt _
  have hspares : Client.Spares (fun _ => False) (sys.client client)
      ((sys.client client).perform .plain (.documents handle op)).2 :=
    .of_eq (Client.perform_plain_sessions _ _) fun hc => hc.perform .plain hr
  refine h.kept (h.serves.setClient _ _) ?_ ?_ fun key _ =>
    untouched_setClient h.serves.client_lt hspares fun _ _ _ hf => hf
  · rw [hself]
    exact h.valid.perform .plain hr
  · rw [hself]
    exact h.unarmed.of_eq (Client.runDocuments_faults _ _ _ _)

theorem Nested.enlisted (h : sys.Nested client registry keys members writes) (hkey : key ∈ keys)
    (hunused : members key = none) {id : SessionId} {c : Client} {r : Registry} {s : Session}
    {t : OpenTransaction} {slot : Slot} (hmissing : (sys.client client).session? id = none)
    (halike : Client.Alike (sys.client client) c)
    (hspares : Client.Spares (fun _ => False) (sys.client client) c) (hs : c.session? id = some s)
    (ht : s.transaction = some t) (hpending : t.pending = ∅)
    (hr : Reslots (sys.registry registry) key r) (hslot : r.slots.find? key = some slot)
    (hlease : slot.lease = some sys.leases.length) :
    let m : Member := ⟨registry, sys.enlistments.length, sys.leases.length, ⟨client, id⟩⟩
    ((sys.enlisted registry key ⟨client, id⟩ c).setRegistry registry r).Nested client registry keys
      (Function.update members key (some m)) writes := by
  intro m
  let sys₁ := sys.enlisted registry key ⟨client, id⟩ c
  let sys' := sys₁.setRegistry registry r
  have hself : sys'.client client = c := client_setClient_self h.serves.client_lt c
  have hlength : sys₁.transactions.length = sys.transactions.length := List.length_set ..
  have hserves : sys₁.Serves registry client := by
    refine ⟨?_, h.serves.registry_lt, h.serves.client_eq, h.serves.closing, fun tx slot hslot => ?_⟩
    · show client < (sys.clients.set client c).length
      rw [List.length_set]
      exact h.serves.client_lt
    · rw [hlength]
      exact h.serves.started tx slot hslot
  -- the sessions of the other members were there before
  have hnew (key' : TxKey) (hkey' : key' ∈ keys) (m' : Member) (hm' : members key' = some m') :
      m'.session ≠ m.session := by
    intro hsame
    obtain ⟨s', t', hs', -⟩ := ((h.carries key' hkey').engaged m' hm').session
    rw [hsame] at hs'
    exact absurd (hmissing.symm.trans hs') nofun
  have hcarries := h.carries key hkey
  refine ⟨hserves.setRegistry hr (hlength ▸ hcarries.tx_lt), ?_, ?_, fun key' hkey' => ?_,
    fun key₁ hkey₁ key₂ hkey₂ hdistinct m₁ m₂ hm₁ hm₂ => ?_⟩
  · rw [hself]
    exact hspares.valid h.valid
  · rw [hself]
    exact h.unarmed.of_eq halike.faults
  · by_cases hsame : key' = key
    · rw [hsame, Function.update_self]
      rw [hunused] at hcarries
      exact hcarries.enlisted h.serves hs ht hpending hslot hlease
    · have hother := h.carries key' hkey'
      rw [Function.update_of_ne hsame]
      exact hother.kept (hother.untouched_enlisted h.serves hsame hspares hr)
  · by_cases hsame₁ : key₁ = key
    · rw [hsame₁, Function.update_self] at hm₁
      rw [hsame₁] at hdistinct
      rw [Function.update_of_ne hdistinct] at hm₂
      obtain rfl := Option.some.inj hm₁
      exact hnew key₂ hkey₂ m₂ hm₂
    · rw [Function.update_of_ne hsame₁] at hm₁
      by_cases hsame₂ : key₂ = key
      · rw [hsame₂, Function.update_self] at hm₂
        obtain rfl := Option.some.inj hm₂
        exact (hnew key₁ hkey₁ m₁ hm₁).symm
      · rw [Function.update_of_ne hsame₂] at hm₂
        exact h.apart key₁ hkey₁ key₂ hkey₂ hdistinct m₁ m₂ hm₁ hm₂

/-- What is done for one transaction reaches no slot and no member of another one, and no session comes to
run but that of its own member. -/
structure ActsFor (sys : System) (client : ClientKey) (registry : RegistryKey) (key : TxKey)
    (members : TxKey → Option Member) (sys' : System) (members' : TxKey → Option Member) : Prop where
  others : ∀ key', key' ≠ key → members' key' = members key'
  kept : ∀ m, members key = some m → members' key = some m
  slots : ∀ key', key' ≠ key →
    (sys'.registry registry).slots.find? key' = (sys.registry registry).slots.find? key'
  starts : Client.Starts (fun id => ∃ m, members' key = some m ∧ m.session.id = id) (sys.client client)
    (sys'.client client)

/-- A session with which an operation in a transaction is called has the transaction's member for its
own. It is refused only to a transaction that has expired. -/
theorem Nested.acquire (h : sys.Nested client registry keys members writes) (hkey : key ∈ keys)
    (hcx : cx.transaction = some key) :
    let acquired := sys.acquire registry cx
    Client.Alike (sys.client client) (acquired.2.client client) ∧ sys.KeepsFates acquired.2 ∧
      ∃ members', acquired.2.Nested client registry keys members' writes ∧
        sys.ActsFor client registry key members acquired.2 members' ∧
        ((∃ e, (sys.transaction key).isExpired sys.clock = true ∧ acquired.1 = .error e) ∨
          ∃ m, members' key = some m ∧ acquired.1 = .ok m.lease) := by
  intro acquired
  have hcarries := h.carries key hkey
  cases hmember : members key with
  | some m =>
    obtain ⟨hlent, -, -, ⟨slot, hslot, hlease⟩, -⟩ := hcarries.engaged m hmember
    have hacquired : acquired = (.ok m.lease, sys) := by
      rw [← checkLease_of_active (congrArg Lease.completed hlent.lease)]
      exact acquire_of_held hcx hslot hlease
    rw [hacquired]
    exact ⟨⟨rfl, rfl, rfl, rfl⟩, ⟨rfl, fun _ => rfl⟩, members, h,
      ⟨fun _ _ => rfl, fun _ hm => hm, fun _ _ => rfl, .refl _⟩, .inr ⟨m, hmember, rfl⟩⟩
  | none =>
    rw [hmember] at hcarries
    have hnone := (hcarries.unused rfl).1
    obtain ⟨r, hr, ⟨e, hrefused, hgone, heq⟩ |
      ⟨id, c, s, options, hmissing, halike, hspares, hstarts, hs, ht, hslot, heq⟩⟩ :=
      acquire_of_unused h.serves h.unarmed hcx hnone
    · have hacquired : acquired = (.error e, sys.setRegistry registry r) := heq
      have hself : (sys.setRegistry registry r).registry registry = r :=
        registry_setRegistry_self h.serves.registry_lt r
      rw [hacquired]
      refine ⟨⟨rfl, rfl, rfl, rfl⟩, ⟨rfl, fun _ => rfl⟩, members, ?_,
        ⟨fun _ _ => rfl, fun _ hm => hm, fun key' hne => by rw [hself, hr.slot key' hne], .refl _⟩,
        .inl ⟨e, Transaction.isExpired_of_checkAccepting hcarries.isOpen hrefused, rfl⟩⟩
      refine h.kept (h.serves.setRegistry hr hcarries.tx_lt) h.valid h.unarmed fun key' _ => ?_
      by_cases hsame : key' = key
      · rw [hsame]
        refine .of_rows rfl rfl rfl (Nat.le_refl _) rfl rfl ?_
        rw [registry_setRegistry_self h.serves.registry_lt, hgone, hnone]
      · exact untouched_setRegistry h.serves.registry_lt hr hsame
    · let sys' := (sys.enlisted registry key ⟨client, id⟩ c).setRegistry registry r
      have hacquired : acquired = (.ok sys.leases.length, sys') := heq
      have hself : sys'.client client = c := client_setClient_self h.serves.client_lt c
      have hnested := h.enlisted hkey hmember hmissing halike hspares hs ht rfl hr hslot rfl
      rw [hacquired]
      refine ⟨by rw [hself]; exact halike, ⟨List.length_set .., fun key' => ?_⟩, _, hnested,
        ⟨fun key' hne => Function.update_of_ne hne .., fun m hm => ?_, fun key' hne => ?_, ?_⟩,
        .inr ⟨_, Function.update_self .., rfl⟩⟩
      · by_cases hsame : key' = key
        · have hrow : sys'.transaction key = _ := transaction_setTransaction_self hcarries.tx_lt _
          rw [hsame, hrow]
        · have hrow : sys'.transaction key' = sys.transaction key' :=
            transaction_setTransaction_of_ne (Ne.symm hsame) sys _
          rw [hrow]
      · cases hmember.symm.trans hm
      · have hrow : sys'.registry registry = r := registry_enlisted h.serves.registry_lt key ⟨client, id⟩ c r
        rw [hrow, hr.slot key' hne]
      · rw [hself]
        exact hstarts.mono fun id' hid => ⟨_, Function.update_self .., hid.symm⟩

theorem Nested.perform (h : sys.Nested client registry keys members writes) (hkey : key ∈ keys)
    (hm : members key = some m) {handle : Handle} {op : DocumentOp}
    (hr : (Request.documents handle op).Ordered) :
    let c := sys.client client
    let performed := c.perform (.session m.session.id) (.documents handle op)
    (sys.setClient client performed.2).Nested client registry keys members
      (Function.update writes key
        (if performed.1.isOk then (writes key).record handle.ns (c.changesOver (writes key) handle op)
          else writes key)) := by
  intro c performed
  have hclient := h.serves.client_lt
  obtain ⟨hlent, hregistry, hclient_eq, hslot, s, t, hs, ht, hpending⟩ :=
    (h.carries key hkey).engaged m hm
  rw [System.session?, hclient_eq] at hs
  obtain ⟨hspares, -, t', hs', hpending'⟩ := Client.perform_buffers hs ht h.valid hr
  rw [Client.changesOf_documents h.valid hs ht, hpending] at hpending'
  have hself : (sys.setClient client performed.2).client client = performed.2 :=
    client_setClient_self hclient _
  refine ⟨h.serves.setClient client _, ?_, ?_, fun key' hkey' => ?_, h.apart⟩
  · rw [hself]
    exact h.valid.perform _ hr
  · rw [hself]
    exact h.unarmed.of_eq (Client.runDocuments_faults _ _ _ _)
  · by_cases hsame : key' = key
    · rw [hsame, Function.update_self]
      have hcarries := h.carries key hkey
      refine ⟨hcarries.tx_lt, hcarries.isOpen, hcarries.participants, fun hnone => ?_, fun m' hm' => ?_⟩
      · rw [hm] at hnone
        cases hnone
      · obtain rfl := Option.some.inj (hm.symm.trans hm')
        have hlent' : (sys.setClient client performed.2).Lent key m :=
          ⟨by rw [System.setClient, List.length_set]; exact hlent.client_lt, hlent.lease_lt, hlent.lease,
            hlent.enlistment⟩
        refine ⟨hlent', hregistry, hclient_eq, hslot, { s with transaction := some t' }, t', ?_, rfl, ?_⟩
        · rw [System.session?, hclient_eq, hself]
          exact hs'
        · rw [hpending']
          dsimp only [performed, c]
          cases ((sys.client client).perform (.session m.session.id) (.documents handle op)).1 <;> rfl
    · rw [Function.update_of_ne hsame]
      have hcarries := h.carries key' hkey'
      refine hcarries.kept (untouched_setClient hclient hspares fun m' hm' hclient' hid => ?_)
      exact h.apart key hkey key' hkey' hsame m m' hm hm'
        (SessionRef.eq_of (hclient'.trans hclient_eq.symm) hid)

theorem ActsFor.perform {members' : TxKey → Option Member}
    (h : sys.ActsFor client registry key members sys' members') {c : Client}
    (hclient : client < sys'.clients.length)
    (hstarts : Client.Starts (fun id => ∃ m, members' key = some m ∧ m.session.id = id)
      (sys'.client client) c) :
    sys.ActsFor client registry key members (sys'.setClient client c) members' :=
  ⟨h.others, h.kept, h.slots, by rw [client_setClient_self hclient]; exact h.starts.trans hstarts⟩

/-- An operation in a transaction commits nothing, and is added to what is written under the transaction if
it is accepted. Unless the transaction has expired, it replies as it does over what is written. -/
theorem Nested.calls (h : sys.Nested client registry keys members writes) (hkey : key ∈ keys)
    (hcx : cx.transaction = some key) {handle : Handle} {op : DocumentOp}
    (hr : (Request.documents handle op).Ordered) :
    let c := sys.client client
    let called := sys.requestThrough client (.byRegistry registry) cx (.documents handle op)
    (called.2.client client).catalog = c.catalog ∧ sys.KeepsFates called.2 ∧
      ∃ members', called.2.Nested client registry keys members'
          (Function.update writes key
            (if called.1.isOk then (writes key).record handle.ns (c.changesOver (writes key) handle op)
            else writes key)) ∧
        sys.ActsFor client registry key members called.2 members' ∧
        (((sys.transaction key).isExpired sys.clock = true ∧ called.1.isOk = false) ∨
          called.1 = (c.replyOver (writes key) handle op).mapError .store) := by
  intro c called
  obtain ⟨halike, hfates, members', hnested, hacts, hacquired⟩ := h.acquire hkey hcx
  have hcalled : called = sys.requestThrough client (.byRegistry registry) cx (.documents handle op) := rfl
  unfold requestThrough dispatch at hcalled
  rw [hcx] at hcalled
  dsimp only at hcalled
  generalize sys.acquire registry cx = acquired at *
  obtain ⟨outcome, sys₁⟩ := acquired
  dsimp only at halike hfates hnested hacts hacquired
  rcases hacquired with ⟨e, hexpired, rfl⟩ | ⟨m, hm, rfl⟩
  · have herror : called = (.error e, sys₁) := hcalled
    rw [herror]
    refine ⟨halike.catalog, hfates, members', ?_, hacts, .inl ⟨hexpired, rfl⟩⟩
    have hsame : Function.update writes key (writes key) = writes := Function.update_eq_self ..
    show sys₁.Nested client registry keys members' (Function.update writes key (writes key))
    rw [hsame]
    exact hnested
  · obtain ⟨hlent, -, hclient_eq, -, s, t, hs, ht, hpending⟩ := (hnested.carries key hkey).engaged m hm
    have hadmits : sys₁.admits m.lease = true := by
      unfold admits
      rw [hlent.lease]
      rfl
    let performed := (sys₁.client client).perform (.session m.session.id) (.documents handle op)
    have hrequest : sys₁.onClient client
        (fun c => c.perform (.session m.session.id) (.documents handle op)) =
          (performed.1.mapError .store, sys₁.setClient client performed.2) :=
      onClient_eq (Prod.eta _).symm
    have hcaller : callerOn client (some m.session) = .session m.session.id := if_pos hclient_eq
    dsimp only at hcalled
    rw [if_pos hadmits, hlent.lease] at hcalled
    dsimp only [request] at hcalled
    rw [hcaller, hrequest] at hcalled
    have hnested₂ := hnested.perform hkey hm hr
    dsimp only at hnested₂
    rw [Client.changesOver_of_eq halike.catalog halike.seed] at hnested₂
    rw [System.session?, hclient_eq] at hs
    obtain ⟨hreply, hcatalog, hstarts⟩ := Client.perform_in_transaction
      hs (hnested.valid.ended_eq_false hs ht) ht handle op
    rw [hpending, Client.replyOver_of_alike halike] at hreply
    have hclient := hnested.serves.client_lt
    rw [hcalled]
    refine ⟨?_, ⟨hfates.transactions, hfates.doomed⟩, members', ?_, hacts.perform hclient hstarts,
      .inr (congrArg (Except.mapError TxError.store) hreply)⟩
    · show ((sys₁.setClient client performed.2).client client).catalog = c.catalog
      rw [client_setClient_self hclient]
      exact hcatalog.trans halike.catalog
    · have hok : (performed.1.mapError TxError.store).isOk = performed.1.isOk := by
        cases performed.1 <;> rfl
      rw [hok]
      exact hnested₂

theorem Nested.call (h : sys.Nested client registry keys members writes) (hkey : key ∈ keys)
    (hcx : cx.transaction = some key) {handle : Handle} {op : DocumentOp}
    (hr : (Request.documents handle op).Ordered) :
    let called := sys.requestThrough client (.byRegistry registry) cx (.documents handle op)
    (∀ ns, called.2.stored client ns = sys.stored client ns) ∧ sys.KeepsFates called.2 ∧
      ∃ members', called.2.Nested client registry keys members'
        (Function.update writes key
          (if called.1.isOk then
            (writes key).record handle.ns ((sys.client client).changesOver (writes key) handle op)
          else writes key)) := by
  obtain ⟨hcatalog, hfates, members', hnested, -⟩ := h.calls hkey hcx hr
  exact ⟨fun ns => Client.stored_of_eq hcatalog ns, hfates, members', hnested⟩

theorem Untouched.trans {sys'' : System} (h : sys.Untouched registry key member sys')
    (h' : sys'.Untouched registry key member sys'') : sys.Untouched registry key member sys'' where
  clients := h'.clients.trans h.clients
  transactions := Nat.le_trans h.transactions h'.transactions
  isOpen := h'.isOpen.trans h.isOpen
  participants := h'.participants.trans h.participants
  slot := h'.slot.trans h.slot
  leases := Nat.le_trans h.leases h'.leases
  lease m hm hlt := (h'.lease m hm (Nat.lt_of_lt_of_le hlt h.leases)).trans (h.lease m hm hlt)
  enlistment m hm := (h'.enlistment m hm).trans (h.enlistment m hm)
  session m hm s hs := h'.session m hm s (h.session m hm s hs)

theorem untouched_noted {key' : TxKey} (hne : key' ≠ key) (sys : System) (row : Transaction)
    (journal : List (TxKey × Milestone)) :
    sys.Untouched registry key' member (sys.noted key row journal) := by
  have hrow : (sys.noted key row journal).transaction key' = sys.transaction key' :=
    transaction_setTransaction_of_ne hne.symm sys row
  exact .of_rows rfl rfl rfl (Nat.le_of_eq (List.length_set ..).symm) (by rw [hrow]) (by rw [hrow]) rfl

/-! ### The end of a transaction -/

theorem registry_told (hlt : m.registry < sys.registries.length) (key : TxKey) (c : Client) :
    (sys.told key m c).registry m.registry =
      { sys.registry m.registry with slots := (sys.registry m.registry).slots.erase key } :=
  getD_set_self hlt _ _

theorem client_told (h : sys.Lent key m) (c : Client) :
    (sys.told key m c).client m.session.client = c :=
  client_setClient_self h.client_lt c

theorem Serves.told (h : sys.Serves m.registry client) (key : TxKey) (c : Client) :
    (sys.told key m c).Serves m.registry client := by
  have hrow := registry_told h.registry_lt key c
  refine ⟨?_, ?_, by rw [hrow]; exact h.client_eq, by rw [hrow]; exact h.closing, fun tx slot hslot => ?_⟩
  · show client < (sys.clients.set _ c).length
    rw [List.length_set]
    exact h.client_lt
  · show m.registry < (sys.registries.set _ _).length
    rw [List.length_set]
    exact h.registry_lt
  · rw [hrow] at hslot
    exact h.started tx slot (SortedMap.find?_of_erase hslot)

theorem Carries.untouched_told {key' : TxKey} {c : Client}
    (h : sys.Carries m.session.client m.registry key' member p)
    (hlt : m.registry < sys.registries.length) (hlent : sys.Lent key m) (hne : key' ≠ key)
    (hapart : ∀ m', member = some m' → m'.session ≠ m.session)
    (hspares : Client.Spares (· = m.session.id) (sys.client m.session.client) c) :
    sys.Untouched m.registry key' member (sys.told key m c) := by
  have hslot : ((sys.told key m c).registry m.registry).slots.find? key' =
      (sys.registry m.registry).slots.find? key' := by
    rw [registry_told hlt]
    exact SortedMap.find?_erase_of_ne _ hne
  -- the rows of a lease and of an enlistment name their transaction
  refine ⟨List.length_set .., Nat.le_refl _, rfl, rfl, hslot, Nat.le_of_eq (List.length_set ..).symm,
    fun m' hm' _ => ?_, fun m' hm' => ?_, fun m' hm' s hs => ?_⟩ <;>
    obtain ⟨hlent', -, hclient', -⟩ := h.engaged m' hm'
  · refine lease_setLease_of_ne (fun hsame => ?_) sys _
    have hrow := hlent'.lease.symm.trans ((congrArg sys.lease hsame).trans hlent.lease)
    exact hne (congrArg Lease.tx hrow)
  · refine getD_set_of_ne (fun hsame => ?_) _ _ _
    have hrow := hlent'.enlistment.symm.trans ((congrArg sys.enlistment hsame.symm).trans hlent.enlistment)
    injection congrArg Enlistment.onCompletion hrow with _ htx
    exact hne htx
  · rw [System.session?, hclient'] at hs ⊢
    rw [client_told hlent]
    exact hspares.sessions _ s hs fun hid => hapart m' hm' (SessionRef.eq_of hclient' hid)

/-- Nothing is left of a transaction in the registry, its session has ended, and no other one came to run. -/
structure Retires (sys : System) (client : ClientKey) (registry : RegistryKey) (key : TxKey)
    (member : Option Member) (sys' : System) : Prop where
  slot : (sys'.registry registry).slots.find? key = none
  slots : ∀ key', key' ≠ key →
    (sys'.registry registry).slots.find? key' = (sys.registry registry).slots.find? key'
  starts : Client.Starts (fun _ => False) (sys.client client) (sys'.client client)
  ended : ∀ m, member = some m → (sys'.client client).ended? m.session.id = some true

/-- The participants of a transaction have been told its outcome, and other transactions are left alone. -/
structure Departs (sys : System) (client : ClientKey) (registry : RegistryKey) (key : TxKey)
    (member : Option Member) (sys' : System) : Prop where
  serves : sys'.Serves registry client
  valid : (sys'.client client).Valid
  unarmed : (sys'.client client).Unarmed
  transactions : sys'.transactions = sys.transactions
  retires : sys.Retires client registry key member sys'
  others : ∀ key' member' p, key' ≠ key → sys.Carries client registry key' member' p →
    (∀ m m', member = some m → member' = some m' → m'.session ≠ m.session) →
    sys.Untouched registry key' member' sys'

theorem Departs.of_unused (hserves : sys.Serves registry client) (hvalid : (sys.client client).Valid)
    (hunarmed : (sys.client client).Unarmed)
    (hnone : (sys.registry registry).slots.find? key = none) : sys.Departs client registry key none sys :=
  ⟨hserves, hvalid, hunarmed, rfl, ⟨hnone, fun _ _ => rfl, .refl _, nofun⟩, fun _ _ _ _ _ _ =>
    .of_rows rfl rfl rfl (Nat.le_refl _) rfl rfl rfl⟩

theorem Engaged.departs (h : sys.Engaged client registry key m p) (hserves : sys.Serves registry client)
    {c : Client} (hvalid : c.Valid) (hunarmed : c.Unarmed)
    (hspares : Client.Spares (· = m.session.id) (sys.client client) c)
    (hstarts : Client.Starts (fun _ => False) (sys.client client) c)
    (hended : c.ended? m.session.id = some true) :
    sys.Departs client registry key (some m) (sys.told key m c) := by
  have hlent := h.lent
  obtain rfl := h.registry_eq
  obtain rfl := h.client_eq
  have hslots := registry_told hserves.registry_lt key c
  refine ⟨hserves.told key c, ?_, ?_, rfl, ⟨?_, fun key' hne => ?_, ?_, fun m' hm' => ?_⟩,
    fun key' member' p' hne hcarries hapart =>
      hcarries.untouched_told hserves.registry_lt hlent hne (fun m' hm' => hapart m m' rfl hm') hspares⟩
  · rw [client_told hlent]
    exact hvalid
  · rw [client_told hlent]
    exact hunarmed
  · rw [hslots]
    exact SortedMap.find?_erase_self _ _
  · rw [hslots]
    exact SortedMap.find?_erase_of_ne _ hne
  · rw [client_told hlent]
    exact hstarts
  · obtain rfl := Option.some.inj hm'
    rw [client_told hlent]
    exact hended

theorem Carries.exists_tells (h : sys.Carries client registry key member p)
    (hserves : sys.Serves registry client) (hvalid : (sys.client client).Valid)
    (hunarmed : (sys.client client).Unarmed) :
    ∃ failure committed rolledBack,
      sys.Tells key (member.toList.map Member.participant) failure committed rolledBack ∧
      sys.Departs client registry key member committed ∧
      sys.Departs client registry key member rolledBack ∧
      (failure = none ↔
        ((sys.client client).catalog.commit (sys.client client).autoCreate p).1 = .ok ()) ∧
      (committed.client client).catalog =
        ((sys.client client).catalog.commit (sys.client client).autoCreate p).2 ∧
      (rolledBack.client client).catalog = (sys.client client).catalog ∧
      (∀ ns, committed.stored client ns =
        if failure.isNone then Changes.written (p.writesOf ns).entries (sys.stored client ns)
        else sys.stored client ns) ∧
      ∀ ns, rolledBack.stored client ns = sys.stored client ns := by
  cases member with
  | none =>
    obtain ⟨hnone, rfl⟩ := h.unused rfl
    have hdeparts := Departs.of_unused hserves hvalid hunarmed hnone
    exact ⟨none, sys, sys, tells_nil sys key, hdeparts, hdeparts, iff_of_true rfl rfl, rfl, rfl,
      fun _ => rfl, fun _ => rfl⟩
  | some m =>
    have hengaged := h.engaged m rfl
    have htells := hengaged.lent.tells
    obtain ⟨s, t, hs, ht, rfl⟩ := hengaged.session
    have hstored (c : Client) (ns : Namespace) : (sys.told key m c).stored client ns = c.stored ns := by
      rw [System.stored, ← hengaged.client_eq, client_told hengaged.lent]
    have hcatalog (c : Client) : ((sys.told key m c).client client).catalog = c.catalog := by
      rw [← hengaged.client_eq, client_told hengaged.lent]
    rw [System.session?, hengaged.client_eq] at hs
    rw [hengaged.client_eq] at htells
    have hrunning := hvalid.ended_eq_false hs ht
    obtain ⟨hunarmed₁, hspares₁, houtcome, hstored₁⟩ := hunarmed.conclude hvalid hs ht true
    obtain ⟨hunarmed₀, hspares₀, -, hstored₀⟩ := hunarmed.conclude hvalid hs ht false
    obtain ⟨hstarts₁, hended₁, hcatalog₁⟩ := hunarmed.concludes hs hrunning ht true
    obtain ⟨hstarts₀, hended₀, hcatalog₀⟩ := hunarmed.concludes hs hrunning ht false
    refine ⟨_, _, _, htells,
      hengaged.departs hserves (hspares₁.valid hvalid) hunarmed₁ hspares₁ hstarts₁ hended₁,
      hengaged.departs hserves (hspares₀.valid hvalid) hunarmed₀ hspares₀ hstarts₀ hended₀, ?_,
      (hcatalog _).trans hcatalog₁, (hcatalog _).trans hcatalog₀, fun ns => ?_, fun ns => ?_⟩
    · rw [← houtcome rfl]
      cases ((sys.client client).conclude m.session.id true).1 with
      | ok u => exact iff_of_true rfl rfl
      | error e => exact iff_of_false nofun nofun
    · rw [hstored, hstored₁]
      cases ((sys.client client).conclude m.session.id true).1 <;> rfl
    · rw [hstored, hstored₀]
      rfl

theorem Departs.noted (h : sys.Departs client registry key member sys') (row : Transaction)
    (journal : List (TxKey × Milestone)) :
    (sys'.noted key row journal).Serves registry client ∧
      ∀ key' member' p, key' ≠ key → sys.Carries client registry key' member' p →
        (∀ m m', member = some m → member' = some m' → m'.session ≠ m.session) →
        sys.Untouched registry key' member' (sys'.noted key row journal) := by
  refine ⟨h.serves.of_eq rfl rfl (Nat.le_of_eq (List.length_set ..).symm),
    fun key' member' p hne hcarries hapart => ?_⟩
  exact (h.others key' member' p hne hcarries hapart).trans (untouched_noted hne sys' row journal)

/-- The scope that owns a transaction is closed. Where it is to commit, the catalog takes what was written
under the transaction or refuses it, and else nothing is committed; the other transactions go on. -/
theorem Nested.closes (h : sys.Nested client registry (key :: keys) members writes) (hnot : key ∉ keys)
    {scope : Scope} (hscope : scope.context.transaction = some key) (howns : scope.owns = true) :
    let c := sys.client client
    let closed := sys.close scope
    let succeeds := scope.completed && closed.1.isOk
    closed.2.Nested client registry keys members writes ∧
      sys.Retires client registry key (members key) closed.2 ∧
      closed.2.transactions.length = sys.transactions.length ∧
      (∀ key' ∈ keys, (closed.2.transaction key').doomed = (sys.transaction key').doomed) ∧
      (closed.2.client client).catalog =
        (if sys.commitsOn key scope then (c.catalog.commit c.autoCreate (writes key)).2 else c.catalog) ∧
      (∀ ns, closed.2.stored client ns =
        if succeeds then Changes.written ((writes key).writesOf ns).entries (sys.stored client ns)
        else sys.stored client ns) ∧
      (succeeds = true ↔ sys.commitsOn key scope = true ∧
        (c.catalog.commit c.autoCreate (writes key)).1 = .ok ()) := by
  intro c closed succeeds
  have hcarries := h.carries key List.mem_cons_self
  obtain ⟨failure, committed, rolledBack, htells, hcommitted, hrolledBack, hfailure, hcatalog₁, hcatalog₀,
    hstored₁, hstored₀⟩ := hcarries.exists_tells h.serves h.valid h.unarmed
  obtain ⟨outcome, row, journal, hclose, hcommits, hrolls⟩ :=
    htells.close hcarries.tx_lt hcarries.isOpen hcarries.participants hscope howns
  let told := if sys.commitsOn key scope then committed else rolledBack
  have hclosed : closed = (outcome, told.noted key row journal) := hclose
  have htold : sys.Departs client registry key (members key) told := by
    show sys.Departs client registry key (members key) (if _ then _ else _)
    split
    · exact hcommitted
    · exact hrolledBack
  obtain ⟨hserves, hothers⟩ := htold.noted row journal
  obtain ⟨hslot, hslots, hstarts, hended⟩ := htold.retires
  -- a scope that is completed in vain reports an error, so its outcome tells what its participant was told
  have hsucceeds : succeeds = (sys.commitsOn key scope && failure.isNone) := by
    show (scope.completed && closed.1.isOk) = _
    rw [hclosed]
    cases hon : sys.commitsOn key scope with
    | true =>
      rw [hcommits hon]
      have hcompleted : scope.completed = true := by
        simp only [commitsOn, Bool.and_eq_true] at hon
        exact hon.1.1
      rw [hcompleted]
      cases failure <;> rfl
    | false =>
      cases hcompleted : scope.completed with
      | false => rfl
      | true =>
        obtain ⟨e, rfl⟩ := hrolls hon hcompleted
        rfl
  rw [hclosed]
  refine ⟨⟨hserves, htold.valid, htold.unarmed, fun key' hkey' => ?_, fun key₁ hkey₁ key₂ hkey₂ =>
    h.apart key₁ (List.mem_cons_of_mem _ hkey₁) key₂ (List.mem_cons_of_mem _ hkey₂)⟩,
    ⟨hslot, hslots, hstarts, hended⟩, ?_, fun key' hkey' => ?_, ?_, fun ns => ?_, ?_⟩
  · have hne : key' ≠ key := fun hsame => hnot (hsame ▸ hkey')
    have hcarries' := h.carries key' (List.mem_cons_of_mem _ hkey')
    exact hcarries'.kept (hothers key' _ _ hne hcarries'
      (h.apart key List.mem_cons_self key' (List.mem_cons_of_mem _ hkey') hne))
  · show (told.transactions.set key row).length = _
    rw [List.length_set, htold.transactions]
  · have hne : key' ≠ key := fun hsame => hnot (hsame ▸ hkey')
    have hrow : (told.noted key row journal).transaction key' = told.transaction key' :=
      transaction_setTransaction_of_ne hne.symm told row
    rw [hrow, transaction_of_eq htold.transactions]
  · show ((if sys.commitsOn key scope then committed else rolledBack).client client).catalog = _
    cases sys.commitsOn key scope with
    | true => exact hcatalog₁
    | false => exact hcatalog₀
  · show told.stored client ns = _
    rw [hsucceeds]
    show (if sys.commitsOn key scope then committed else rolledBack).stored client ns = _
    cases sys.commitsOn key scope with
    | true => exact hstored₁ ns
    | false => exact hstored₀ ns
  · rw [← hfailure, ← Option.isNone_iff_eq_none, ← Bool.and_eq_true, ← hsucceeds]

/-- The scope that owns a transaction is closed. What was written under the transaction is stored at once
or, where it is not to commit or the catalog refuses it, never; the other transactions go on. -/
theorem Nested.close (h : sys.Nested client registry (key :: keys) members writes) (hnot : key ∉ keys)
    {scope : Scope} (hscope : scope.context.transaction = some key) (howns : scope.owns = true) :
    let closed := sys.close scope
    let succeeds := scope.completed && closed.1.isOk
    closed.2.Nested client registry keys members writes ∧
      closed.2.transactions.length = sys.transactions.length ∧
      (∀ key' ∈ keys, (closed.2.transaction key').doomed = (sys.transaction key').doomed) ∧
      (∀ ns, closed.2.stored client ns =
        if succeeds then Changes.written ((writes key).writesOf ns).entries (sys.stored client ns)
        else sys.stored client ns) ∧
      (succeeds = true ↔ sys.commitsOn key scope = true ∧
        ((sys.client client).catalog.commit (sys.client client).autoCreate (writes key)).1 = .ok ()) := by
  obtain ⟨hnested, -, hlength, hdoomed, -, hstored, hsucceeds⟩ := h.closes hnot hscope howns
  exact ⟨hnested, hlength, hdoomed, hstored, hsucceeds⟩

end System

end ScopedStore
