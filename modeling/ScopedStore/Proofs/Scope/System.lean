import ScopedStore.Scope.Facade

/-!
# Rows of a system

A row that is put into a table is read back from its place, one that is added from the place after
the last. Every other table reads as before by definition.
-/

namespace ScopedStore

namespace System

/-! ## Tables -/

theorem getD_set_self {α : Type} {l : List α} {n : Nat} (h : n < l.length) (x y : α) :
    (l.set n x).getD n y = x := by
  rw [List.getD_eq_getElem?_getD, List.getElem?_set_self h, Option.getD_some]

theorem getD_set_of_ne {α : Type} {n n' : Nat} (h : n ≠ n') (l : List α) (x y : α) :
    (l.set n x).getD n' y = l.getD n' y := by
  rw [List.getD_eq_getElem?_getD, List.getElem?_set_ne h, ← List.getD_eq_getElem?_getD]

theorem set_getD {α : Type} (l : List α) (n : Nat) (x : α) : l.set n (l.getD n x) = l := by
  by_cases hlt : n < l.length
  · rw [List.getD_eq_getElem?_getD, List.getElem?_eq_getElem hlt, Option.getD_some,
      List.set_getElem_self]
  · exact List.set_eq_of_length_le (Nat.le_of_not_lt hlt)

theorem getD_append_of_lt {α : Type} {l : List α} {n : Nat} (h : n < l.length) (l' : List α) (y : α) :
    (l ++ l').getD n y = l.getD n y := by
  rw [List.getD_eq_getElem?_getD, List.getElem?_append_left h, ← List.getD_eq_getElem?_getD]

theorem getD_length_append {α : Type} (l : List α) (x y : α) : (l ++ [x]).getD l.length y = x := by
  rw [List.getD_eq_getElem?_getD, List.getElem?_append_right (Nat.le_refl _), Nat.sub_self]
  rfl

theorem getD_append_congr {α β : Type} (view : α → β) {x y : α} (h : view x = view y) (l : List α)
    (n : Nat) : view ((l ++ [x]).getD n y) = view (l.getD n y) := by
  rcases Nat.lt_trichotomy n l.length with hlt | rfl | hgt
  · rw [getD_append_of_lt hlt]
  · rw [getD_length_append, List.getD_eq_getElem?_getD, List.getElem?_eq_none (Nat.le_refl _), h]
    rfl
  · rw [List.getD_eq_getElem?_getD, List.getD_eq_getElem?_getD, List.getElem?_eq_none,
      List.getElem?_eq_none (Nat.le_of_lt hgt)]
    rw [List.length_append, List.length_singleton]
    exact hgt

theorem client_setClient_self {sys : System} {key : ClientKey} (h : key < sys.clients.length)
    (c : Client) : (sys.setClient key c).client key = c :=
  getD_set_self h c default

theorem client_setClient_of_ne {client client' : ClientKey} (h : client' ≠ client) (sys : System)
    (c : Client) : (sys.setClient client c).client client' = sys.client client' :=
  getD_set_of_ne h.symm sys.clients c default

theorem setClient_client (sys : System) (client : ClientKey) :
    sys.setClient client (sys.client client) = sys := by
  unfold setClient System.client
  rw [set_getD]

theorem setClient_setClient (sys : System) (client : ClientKey) (c c' : Client) :
    (sys.setClient client c).setClient client c' = sys.setClient client c' := by
  unfold setClient
  rw [List.set_set]

theorem transaction_setTransaction_self {sys : System} {key : TxKey}
    (h : key < sys.transactions.length) (t : Transaction) :
    (sys.setTransaction key t).transaction key = t :=
  getD_set_self h t default

theorem transaction_setTransaction_of_ne {key key' : TxKey} (h : key' ≠ key) (sys : System)
    (t : Transaction) : (sys.setTransaction key' t).transaction key = sys.transaction key :=
  getD_set_of_ne h sys.transactions t default

theorem registry_setRegistry_self {sys : System} {key : RegistryKey}
    (h : key < sys.registries.length) (r : Registry) : (sys.setRegistry key r).registry key = r :=
  getD_set_self h r default

theorem registry_setRegistry_of_ne {registry registry' : RegistryKey} (h : registry' ≠ registry)
    (sys : System) (r : Registry) :
    (sys.setRegistry registry r).registry registry' = sys.registry registry' :=
  getD_set_of_ne h.symm sys.registries r default

theorem setRegistry_setRegistry (sys : System) (registry : RegistryKey) (r r' : Registry) :
    (sys.setRegistry registry r).setRegistry registry r' = sys.setRegistry registry r' := by
  unfold setRegistry
  rw [List.set_set]

theorem lease_setLease_self {sys : System} {key : LeaseKey} (h : key < sys.leases.length)
    (l : Lease) : (sys.setLease key l).lease key = l :=
  getD_set_self h l default

theorem lease_setLease_of_ne {key key' : LeaseKey} (h : key' ≠ key) (sys : System) (l : Lease) :
    (sys.setLease key l).lease key' = sys.lease key' :=
  getD_set_of_ne h.symm sys.leases l default

theorem transaction_addTransaction (sys : System) (t : Transaction) :
    (sys.addTransaction t).2.transaction (sys.addTransaction t).1 = t :=
  getD_length_append sys.transactions t default

/-- The system after the completion of a transaction has begun. -/
def completing (sys : System) (tx : TxKey) : System :=
  sys.setTransaction tx { sys.transaction tx with completing := true, participants := [] }

/-! ## Clients -/

theorem onClient_eq {α : Type} {sys : System} {key : ClientKey}
    {act : Client → Except StoreError α × Client} {outcome : Except StoreError α} {c : Client}
    (h : act (sys.client key) = (outcome, c)) :
    sys.onClient key act = (outcome.mapError .store, sys.setClient key c) := by
  rw [onClient, h]
  cases outcome <;> rfl

theorem onClient_setClient {α : Type} {sys : System} {client : ClientKey}
    (hclient : client < sys.clients.length) (c : Client)
    (act : Client → Except StoreError α × Client) :
    (sys.setClient client c).onClient client act =
      ((act c).1.mapError .store, sys.setClient client (act c).2) := by
  have hself : (sys.setClient client c).client client = c := client_setClient_self hclient c
  rw [← setClient_setClient sys client c (act c).2]
  refine onClient_eq ?_
  rw [hself]

theorem onClient_eq_ok {α : Type} {sys : System} {key : ClientKey}
    {act : Client → Except StoreError α × Client} {a : α} {c : Client}
    (h : act (sys.client key) = (.ok a, c)) :
    sys.onClient key act = (.ok a, sys.setClient key c) :=
  onClient_eq h

end System

end ScopedStore
